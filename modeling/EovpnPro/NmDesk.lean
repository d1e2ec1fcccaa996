import EovpnPro.AttemptFlag
import EovpnPro.NmStages
import EovpnPro.OpenVpn3Desk

namespace EovpnPro.NmDesk

open Events NmOperations NmStages NmWorker ProfileAudit Runs Traces AttemptFlag

variable {b c : NetworkManager}

/-- The backend under a window without a cascade. `attempt` is the window's
`connection_attempt_active`. The rest is kept for the statements: how often an
operation was cancelled, and how often it had been when each guarded callback of
the idle queue was put there; the operations that are disconnects or were taken
off the queue; the failures told; and whether a refusal was dropped with no
cancel since. -/
structure Desk where
  nm : NetworkManager
  attempt : Bool := false
  cancels : Nat := 0
  refusals : List Nat := []
  disconnects : List Nat := []
  dropped : List Nat := []
  told : List String := []
  silent : Bool := false

inductive Action
  | click (up : Option Bool) (chosen : Option (Option (List Char)))
  | cancelSuppress
  | cancelClear
  | signal (result : Result) (error : Option String)
  | idleCallback
  | worker (e : Answers)

/-- `MainWindowSignals.connect` without an attempt: `up` is what `status` answers,
absent when it raises, and `chosen` what a read of the selected profile yields. -/
def dial (s : Desk) (up : Option Bool) (chosen : Option (Option (List Char))) : Desk :=
  let s := { s with nm := startWatch s.nm }
  match up, chosen with
  | some true, _ =>
      { s with
        nm := dispatchOffUiThread s.nm .disconnect
        disconnects := s.nm.nextId :: s.disconnects }
  | some false, some config =>
      { s with
        nm := connect s.nm config
        attempt := true
        refusals := if auditOvpnContent config = [] then s.refusals else s.refusals ++ [s.cancels] }
  | _, _ => s

def heedGuarded (s : Desk) (result : Result) (error : Option String) : Bool :=
  if s.nm.suppress then s.attempt else heed s.attempt (result, error)

/-- What the window does with the callback at the head of the idle queue. -/
def receive (s : Desk) : Desk :=
  match s.nm.idle with
  | [] => s
  | .guarded result error :: _ =>
      { s with
        attempt := heedGuarded s result error
        refusals := s.refusals.tail
        silent := s.silent || (s.nm.suppress && decide (s.refusals.head? = some s.cancels)) }
  | .failure runner :: _ =>
      let message := messageOf s.nm.messages runner
      { s with
        attempt := heed s.attempt (.bool false, some message)
        told := s.told ++ [message] }

/-- A click while an attempt is on cancels it: the handler goes through
`cancel_current_operation` and puts the flag back at its end. -/
def step (s : Desk) : Action → Option Desk
  | .click up chosen =>
      if s.attempt then
        (NmWorker.step s.nm .cancelFlag).map fun nm => { s with nm, cancels := s.cancels + 1 }
      else if s.nm.caller = .idle then some (dial s up chosen)
      else none
  | .cancelSuppress => (NmWorker.step s.nm .cancelSuppress).map fun nm => { s with nm }
  | .cancelClear =>
      (NmWorker.step s.nm .cancelClear).map fun nm =>
        { s with nm, attempt := false, dropped := s.nm.queue.map Job.id ++ s.dropped }
  | .signal result error =>
      (NmWorker.step s.nm (.signal result error)).map fun nm =>
        { s with nm, attempt := heedGuarded s result error }
  | .idleCallback => (NmWorker.step s.nm .idleCallback).map fun nm => { receive s with nm }
  | .worker e => (NmWorker.step s.nm (.worker e)).map fun nm => { s with nm }

/-- The failures of operations that were not cancelled, oldest first. -/
def failures : List Event → List String
  | [] => []
  | .ended _ (.failed message) :: older =>
      if cancelledSince older then failures older else failures older ++ [failureText message]
  | _ :: older => failures older

def waiting (idle : List Idle) : List Nat :=
  idle.filterMap fun
    | .guarded _ _ => none
    | .failure runner => some runner

/-- An operation ends normally only with its profile activated, disconnects
aside, and as cancelled only after a cancel. -/
def EndsWell (disconnects : List Nat) (older : List Event) : Event → Prop
  | .ended id .done => id ∉ disconnects → ∃ uuid, .activateConnection id uuid true ∈ older
  | .ended _ .cancelled => cancelledSince older = true
  | _ => True

def Placed (s : Desk) (id : Nat) : Prop :=
  id ∈ s.nm.queue.map Job.id ∨ (∃ job stage, s.nm.worker = some (.busy job stage) ∧ job.id = id) ∨
    (∃ outcome, .ended id outcome ∈ s.nm.trace) ∨ id ∈ s.dropped

/-- Something may still come: the cancel that is under way, a callback of the idle
queue, a connect operation, or a signal about an activated profile. -/
def Hearing (b : NetworkManager) : Prop :=
  b.caller ≠ .idle ∨ b.idle ≠ [] ∨ (∃ job ∈ b.queue, isConnect job.op = true) ∨
    (∃ job stage, b.worker = some (.busy job stage) ∧ isConnect job.op = true ∧ b.cancel = false) ∨
    b.watch = true ∧ b.nmActiveUuid.isSome = true

def reports (s : Desk) : List String := s.told ++ (waiting s.nm.idle).map (messageOf s.nm.messages)

/-- There is one report for each failure, with its text or that of a later one. -/
structure Reported (failures reports : List String) : Prop where
  length : reports.length = failures.length
  texts : ∀ i message, reports[i]? = some message → message ∈ failures.drop i

structure Followed (s : Desk) : Prop where
  placed : ∀ id < s.nm.nextId, Placed s id
  alive : s.nm.queue ≠ [] → s.nm.worker.isSome = true
  ended : Always (EndsWell s.disconnects) s.nm.trace
  failed : Reported (failures s.nm.trace) (reports s)
  refused : s.silent = false
  pending : s.attempt = true → Hearing s.nm

/-- The condition of one step: without the listener no operation ends with its
profile activated, an attempt on, and nothing else under way. -/
def Announced (s : Desk) : Action → Prop
  | .worker _ => ∀ job, s.nm.worker = some (.busy job (.ended .done)) → isConnect job.op = true →
      s.attempt = true → s.nm.caller = .idle → s.nm.idle = [] →
        (∀ j ∈ s.nm.queue, isConnect j.op = false) → s.nm.dbus = true
  | _ => True

section Traces

variable {events trace : List Event} {disconnects : List Nat}

theorem failures_plain (h : ∀ event ∈ events, plain event = true) :
    failures (events ++ trace) = failures trace := by
  apply append_plain (P := fun l => failures l = failures trace) _ h rfl
  intro event older hp ih
  cases event with
  | started | cancelCalled | ended => exact Bool.noConfusion hp
  | dispatched | addConnection | activateConnection | disconnect | deleteConnection | callback => exact ih

theorem endsWell_plain (h : ∀ event ∈ events, plain event = true)
    (ht : Always (EndsWell disconnects) trace) : Always (EndsWell disconnects) (events ++ trace) := by
  apply append_plain _ h ht
  intro event older hp ih
  cases event with
  | started | cancelCalled | ended => exact Bool.noConfusion hp
  | dispatched | addConnection | activateConnection | disconnect | deleteConnection | callback =>
      exact ⟨trivial, ih⟩

theorem endsWell_mono {more : List Nat} (h : Always (EndsWell disconnects) trace)
    (hm : ∀ id ∈ disconnects, id ∈ more) : Always (EndsWell more) trace := by
  refine h.mono fun older event he => ?_
  cases event with
  | ended id outcome =>
      cases outcome with
      | done => exact fun hid => he fun hd => hid (hm id hd)
      | cancelled | failed => exact he
  | started | cancelCalled | dispatched | addConnection | activateConnection | disconnect | deleteConnection
  | callback => trivial

end Traces

variable {s t : Desk}

structure Backing (s : Desk) : Prop where
  placed : ∀ id < s.nm.nextId, Placed s id
  alive : s.nm.queue ≠ [] → s.nm.worker.isSome = true
  ended : Always (EndsWell s.disconnects) s.nm.trace
  failed : Reported (failures s.nm.trace) (reports s)
  refused : s.silent = false
  cancel : s.nm.cancel = cancelledSince s.nm.trace
  queued : ∀ job ∈ s.nm.queue, isConnect job.op = false → job.id ∈ s.disconnects
  running : ∀ job stage, s.nm.worker = some (.busy job stage) →
    (isConnect job.op = false → job.id ∈ s.disconnects) ∧ Sound s.nm job stage
  behind : ∀ r ∈ s.refusals, r ≤ s.cancels ∧ (s.nm.suppress = true ∨ s.nm.caller ≠ .idle → r < s.cancels)
  listener : s.nm.watch = true → s.nm.dbus = true
  refusing : ∀ result error, Idle.guarded result error ∈ s.nm.idle → settles result error = true

structure Flagged (s : Desk) : Prop where
  unsuppressed : s.nm.caller = .idle → s.nm.suppress = false
  watched : s.nm.dbus = true → s.nm.watch = true
  hearing : Hearing s.nm
  last : s.nm.caller = .idle → s.nm.idle = [] →
    (∀ job, s.nm.queue.getLast? = some job → isConnect job.op = true) ∧
      ∀ job stage, s.nm.worker = some (.busy job stage) → isConnect job.op = false → s.nm.queue ≠ []

theorem Backing.followed (h : Backing s) (hp : s.attempt = true → Hearing s.nm) : Followed s :=
  ⟨h.placed, h.alive, h.ended, h.failed, h.refused, hp⟩

theorem Backing.startWatch (h : Backing s) (hi : s.nm.caller = .idle) :
    Backing { s with nm := startWatch s.nm } where
  placed := h.placed
  alive := h.alive
  ended := h.ended
  failed := h.failed
  refused := h.refused
  cancel := h.cancel
  queued := h.queued
  running := h.running
  behind r hr := ⟨(h.behind r hr).1, fun hs => by
    rcases hs with hs | hs
    · exact absurd hs Bool.false_ne_true
    · exact absurd hi hs⟩
  listener hw := (Bool.or_eq_true_iff.mp hw).elim h.listener id
  refusing := h.refusing

theorem Backing.dispatched (h : Backing s) (op : Op) (disconnects : List Nat)
    (hd : ∀ id ∈ s.disconnects, id ∈ disconnects) (ho : isConnect op = false → s.nm.nextId ∈ disconnects) :
    Backing { s with nm := dispatchOffUiThread s.nm op, disconnects } where
  placed id hid := by
    rcases Nat.lt_succ_iff_lt_or_eq.mp hid with hid | rfl
    · rcases h.placed id hid with hq | ⟨job, stage, hw, hj⟩ | ⟨outcome, he⟩ | hdrop
      · left
        simp only [dispatchOffUiThread, log, List.map_append, List.mem_append]
        exact .inl hq
      · refine .inr (.inl ⟨job, stage, ?_, hj⟩)
        simp only [dispatchOffUiThread, log, hw, Option.getD_some]
      · exact .inr (.inr (.inl ⟨outcome, List.mem_cons_of_mem _ he⟩))
      · exact .inr (.inr (.inr hdrop))
    · left
      simp only [dispatchOffUiThread, log, List.map_append, List.map_cons, List.map_nil]
      exact List.mem_append_right _ (List.mem_singleton_self _)
  alive _ := rfl
  ended := ⟨trivial, endsWell_mono h.ended hd⟩
  failed := h.failed
  refused := h.refused
  cancel := h.cancel
  queued job hj := by
    rcases List.mem_append.mp hj with hj | hj
    · exact fun hc => hd _ (h.queued job hj hc)
    · obtain rfl := List.mem_singleton.mp hj
      exact ho
  running job stage hw := by
    cases hb : s.nm.worker with
    | none => simp [dispatchOffUiThread, log, hb] at hw
    | some worker =>
        simp only [dispatchOffUiThread, log, hb, Option.getD_some] at hw
        obtain ⟨hk, hs⟩ := h.running job stage (hb.trans hw)
        exact ⟨fun hc => hd _ (hk hc), hs.mono (fun _ => List.mem_cons_of_mem _) rfl id⟩
  behind := h.behind
  listener := h.listener
  refusing := h.refusing

def still (s : Desk) : List Job × Option Worker × Nat × Option String × Bool × Bool × List Nat × List Nat :=
  (s.nm.queue, s.nm.worker, s.nm.nextId, s.nm.nmActiveUuid, s.nm.watch, s.nm.dbus, s.disconnects, s.dropped)

theorem Backing.of_still (h : Backing s) (hstill : still t = still s) (events : List Event)
    (ht : t.nm.trace = events ++ s.nm.trace) (hc : s.nm.cancel = true → t.nm.cancel = true)
    (hcancel : t.nm.cancel = cancelledSince t.nm.trace)
    (hended : Always (EndsWell s.disconnects) t.nm.trace)
    (hfailed : Reported (failures t.nm.trace) (reports t)) (hrefused : t.silent = false)
    (hbehind : ∀ r ∈ t.refusals,
      r ≤ t.cancels ∧ (t.nm.suppress = true ∨ t.nm.caller ≠ .idle → r < t.cancels))
    (hidle : ∀ result error, Idle.guarded result error ∈ t.nm.idle → settles result error = true) :
    Backing t := by
  simp only [still, Prod.mk.injEq] at hstill
  obtain ⟨hq, hw, hn, ha, hwatch, hdbus, hd, hdrop⟩ := hstill
  have hmem : ∀ event ∈ s.nm.trace, event ∈ t.nm.trace := fun event he =>
    ht ▸ List.mem_append_right events he
  refine ⟨fun id hid => ?_, ?_, hd ▸ hended, hfailed, hrefused, hcancel, ?_, fun job stage hb => ?_,
    hbehind, ?_, hidle⟩
  · rw [hn] at hid
    simp only [Placed, hq, hw, hdrop]
    rcases h.placed id hid with hp | hp | ⟨outcome, he⟩ | hp
    · exact .inl hp
    · exact .inr (.inl hp)
    · exact .inr (.inr (.inl ⟨outcome, hmem _ he⟩))
    · exact .inr (.inr (.inr hp))
  · rw [hq, hw]
    exact h.alive
  · rw [hq, hd]
    exact h.queued
  · rw [hw] at hb
    obtain ⟨hk, hs⟩ := h.running job stage hb
    exact ⟨hd ▸ hk, hs.mono hmem ha hc⟩
  · rw [hwatch, hdbus]
    exact h.listener

theorem Backing.of_callback (h : Backing s) (hstill : still t = still s)
    (ht : t.nm.trace = s.nm.trace ∨ ∃ result error, t.nm.trace = .callback result error :: s.nm.trace)
    (hc : t.nm.cancel = s.nm.cancel)
    (hfailed : reports t = reports s) (hrefused : t.silent = false)
    (hbehind : ∀ r ∈ t.refusals,
      r ≤ t.cancels ∧ (t.nm.suppress = true ∨ t.nm.caller ≠ .idle → r < t.cancels))
    (hidle : ∀ result error, Idle.guarded result error ∈ t.nm.idle → settles result error = true) :
    Backing t := by
  obtain ⟨events, he, hp⟩ : ∃ events, t.nm.trace = events ++ s.nm.trace ∧
      ∀ event ∈ events, plain event = true := by
    rcases ht with ht | ⟨result, error, ht⟩
    · exact ⟨[], ht, fun _ hm => absurd hm List.not_mem_nil⟩
    · exact ⟨[.callback result error], ht, plain_singleton rfl⟩
  refine h.of_still hstill events he (fun h => hc.trans h) ?_ ?_ ?_ hrefused hbehind hidle
  · rw [hc, he, cancelledSince_plain hp, h.cancel]
  · rw [he]
    exact endsWell_plain hp h.ended
  · rw [he, failures_plain hp, hfailed]
    exact h.failed

theorem Backing.cancelFlag (h : Backing s) :
    Backing { s with
      nm := log { s.nm with caller := .flagged, cancel := true } .cancelCalled
      cancels := s.cancels + 1 } := by
  refine h.of_still rfl [.cancelCalled] rfl (fun _ => rfl) rfl ⟨trivial, h.ended⟩ h.failed h.refused ?_
    h.refusing
  exact fun r hr => ⟨Nat.le_succ_of_le (h.behind r hr).1, fun _ => Nat.lt_succ_of_le (h.behind r hr).1⟩

theorem Backing.cancelSuppress (h : Backing s) (hf : s.nm.caller = .flagged) :
    Backing { s with nm := { s.nm with caller := .suppressed, suppress := true } } := by
  refine h.of_still rfl [] rfl id h.cancel h.ended h.failed h.refused (fun r hr => ?_) h.refusing
  exact ⟨(h.behind r hr).1, fun _ => (h.behind r hr).2 (.inr (by rw [hf]; simp))⟩

theorem Backing.cancelClear (h : Backing s) (hs : s.nm.caller = .suppressed) (attempt : Bool) :
    Backing { s with
      nm := { s.nm with caller := .idle, queue := [] }
      attempt, dropped := s.nm.queue.map Job.id ++ s.dropped } where
  placed id hid := by
    rcases h.placed id hid with hp | hp | hp | hp
    · exact .inr (.inr (.inr (List.mem_append_left _ hp)))
    · exact .inr (.inl hp)
    · exact .inr (.inr (.inl hp))
    · exact .inr (.inr (.inr (List.mem_append_right _ hp)))
  alive hq := absurd rfl hq
  ended := h.ended
  failed := h.failed
  refused := h.refused
  cancel := h.cancel
  queued job hj := absurd hj List.not_mem_nil
  running := h.running
  behind r hr := ⟨(h.behind r hr).1, fun _ => (h.behind r hr).2 (.inr (by rw [hs]; simp))⟩
  listener := h.listener
  refusing := h.refusing

theorem Backing.retired (h : Backing s) (hw : s.nm.worker = some .looping) (hq : s.nm.queue = []) :
    Backing { s with nm := { s.nm with worker := none } } where
  placed id hid := by
    rcases h.placed id hid with hp | ⟨job, stage, hb, -⟩ | hp | hp
    · exact .inl hp
    · rw [hw] at hb; cases hb
    · exact .inr (.inr (.inl hp))
    · exact .inr (.inr (.inr hp))
  alive hne := absurd hq hne
  ended := h.ended
  failed := h.failed
  refused := h.refused
  cancel := h.cancel
  queued := h.queued
  running _ _ hb := by cases hb
  behind := h.behind
  listener := h.listener
  refusing := h.refusing

theorem Backing.taken (h : Backing s) {job : Job} {rest : List Job} (hw : s.nm.worker = some .looping)
    (hq : s.nm.queue = job :: rest) :
    Backing { s with
      nm := log (toStage { s.nm with queue := rest, cancel := false, suppress := false } job
        (firstStage job.op)) (.started job.id) } where
  placed id hid := by
    rcases h.placed id hid with hp | ⟨j, stage, hb, -⟩ | ⟨outcome, he⟩ | hp
    · rw [hq, List.map_cons] at hp
      rcases List.mem_cons.mp hp with rfl | hp
      · exact .inr (.inl ⟨job, _, rfl, rfl⟩)
      · exact .inl hp
    · rw [hw] at hb; cases hb
    · exact .inr (.inr (.inl ⟨outcome, List.mem_cons_of_mem _ he⟩))
    · exact .inr (.inr (.inr hp))
  alive _ := rfl
  ended := ⟨trivial, h.ended⟩
  failed := h.failed
  refused := h.refused
  cancel := rfl
  queued j hj := h.queued j (hq ▸ List.mem_cons_of_mem job hj)
  running j stage hb := by
    obtain ⟨rfl, rfl⟩ := Worker.busy.inj (Option.some.inj hb)
    refine ⟨h.queued job (hq ▸ List.mem_cons_self), ?_⟩
    cases hop : job.op with
    | connect config => trivial
    | disconnect => exact congrArg isConnect hop
  behind r hr := by
    obtain ⟨hle, hlt⟩ := h.behind r hr
    refine ⟨hle, fun hs => hlt ?_⟩
    rcases hs with hs | hs
    · exact absurd hs Bool.false_ne_true
    · exact .inr hs
  listener := h.listener
  refusing := h.refusing

theorem Backing.moved (h : Backing s) {job : Job} {stage : Stage} (hs : ∀ outcome, stage ≠ .ended outcome)
    (hw : s.nm.worker = some (.busy job stage)) (e : Answers) :
    Backing { s with nm := stepStage s.nm job e stage } := by
  obtain ⟨hk, hsound⟩ := h.running job stage hw
  obtain ⟨events, next, hm⟩ := moved_stepStage s.nm job e hs
  obtain ⟨next', hw', hsound'⟩ := sound_stepStage hs hsound e
  have hp := plain_advance hm.advance
  have hl := listener_stepStage s.nm job e stage
  have hf := hm.kept
  simp only [frame, Prod.mk.injEq] at hf
  obtain ⟨hq, hc, hsup, hcall, hidle, hn⟩ := hf
  simp only [NmStages.listener, Prod.mk.injEq] at hl
  constructor
  · intro id hid
    rw [hn] at hid
    rcases h.placed id hid with hp | ⟨j, st, hb, hj⟩ | ⟨outcome, he⟩ | hp
    · exact .inl (by rw [hq]; exact hp)
    · rw [hw] at hb
      obtain ⟨rfl, -⟩ := Worker.busy.inj (Option.some.inj hb)
      exact .inr (.inl ⟨job, next', hw', hj⟩)
    · exact .inr (.inr (.inl ⟨outcome, by rw [hm.trace]; exact List.mem_append_right _ he⟩))
    · exact .inr (.inr (.inr hp))
  · intro _
    rw [hw']
    rfl
  · rw [hm.trace]
    exact endsWell_plain hp h.ended
  · have hr : reports { s with nm := stepStage s.nm job e stage } = reports s := by
      simp only [reports, hidle, messages_stepStage hs]
    rw [hm.trace, failures_plain hp, hr]
    exact h.failed
  · exact h.refused
  · rw [hc, hm.trace, cancelledSince_plain hp]
    exact h.cancel
  · rw [hq]
    exact h.queued
  · intro j st hb
    obtain ⟨rfl, rfl⟩ := Worker.busy.inj (Option.some.inj (hw'.symm.trans hb))
    exact ⟨hk, hsound'⟩
  · rw [hsup, hcall]
    exact h.behind
  · rw [hl.1, hl.2]
    exact h.listener
  · rw [hidle]
    exact h.refusing

theorem messageOf_cons (messages : List (Nat × String)) (runner : Nat) (text : String) (reader : Nat) :
    messageOf ((runner, text) :: messages) reader =
      if reader = runner then text else messageOf messages reader := by
  rw [messageOf, List.lookup_cons]
  by_cases hr : reader = runner
  · rw [if_pos hr, beq_iff_eq.mpr hr]
    rfl
  · rw [if_neg hr, beq_eq_false_iff_ne.mpr hr]
    rfl

/-- A new failure may change what the reports before it say to its own text. -/
theorem Reported.fail {failures told : List String} {runners : List Nat} {old : Nat → String}
    (h : Reported failures (told ++ runners.map old)) (runner : Nat) (new : Nat → String)
    (hn : ∀ reader, new reader = if reader = runner then new runner else old reader) :
    Reported (failures ++ [new runner]) (told ++ (runners ++ [runner]).map new) := by
  have hlength := h.length
  simp only [List.length_append, List.length_map] at hlength
  have hmem {i : Nat} {message : String} (hm : message ∈ failures.drop i) :
      message ∈ (failures ++ [new runner]).drop i := by
    rw [List.drop_append]
    exact List.mem_append_left _ hm
  have hlast {i : Nat} (hi : i ≤ failures.length) : new runner ∈ (failures ++ [new runner]).drop i := by
    rw [List.drop_append_of_le_length hi]
    exact List.mem_append_right _ (List.mem_singleton_self _)
  refine ⟨by simp [← hlength, Nat.add_assoc], fun i message hi => ?_⟩
  rw [List.getElem?_append] at hi
  split at hi
  · rename_i hlt
    refine hmem (h.texts i message ?_)
    rw [List.getElem?_append_left hlt, hi]
  · rename_i hge
    rw [List.getElem?_map] at hi
    obtain ⟨reader, hr, rfl⟩ := Option.map_eq_some_iff.mp hi
    have hlt := (List.getElem?_eq_some_iff.mp hr).1
    rw [List.length_append, List.length_singleton] at hlt
    by_cases he : reader = runner
    · subst he
      exact hlast (by omega)
    · rw [hn reader, if_neg he]
      refine hmem (h.texts i _ ?_)
      rw [List.getElem?_append_right (not_lt.mp hge), List.getElem?_map]
      rw [List.getElem?_append] at hr
      split at hr
      · rw [hr, Option.map_some]
      · exact absurd (List.mem_singleton.mp (List.mem_of_getElem? hr)) he

theorem reported_finish (job : Job) (outcome : Outcome) (hc : s.nm.cancel = cancelledSince s.nm.trace)
    (h : Reported (failures s.nm.trace) (reports s)) :
    Reported (failures (finish s.nm job outcome).trace) (reports { s with nm := finish s.nm job outcome }) := by
  rw [(trace_finish s.nm job outcome).1]
  cases outcome with
  | done | cancelled => exact h
  | failed message =>
      simp only [failures, ← hc, finish]
      cases hb : s.nm.cancel with
      | true => simpa [reports, log, hb] using h
      | false =>
          have hr := h.fail s.nm.runner (messageOf ((s.nm.runner, failureText message) :: s.nm.messages)) fun reader => by
            rw [messageOf_cons, messageOf_cons, if_pos rfl]
          rw [messageOf_cons, if_pos rfl] at hr
          simpa [reports, waiting, log, hb] using hr

theorem Backing.finished (h : Backing s) {job : Job} {outcome : Outcome}
    (hw : s.nm.worker = some (.busy job (.ended outcome))) :
    Backing { s with nm := finish s.nm job outcome } := by
  obtain ⟨hk, hsound⟩ := h.running job _ hw
  obtain ⟨ht, hm⟩ := trace_finish s.nm job outcome
  have hl := listener_stepStage s.nm job {} (.ended outcome)
  simp only [machine, Prod.mk.injEq] at hm
  obtain ⟨hq, hw', hc, hcall, hn⟩ := hm
  simp only [NmStages.listener, Prod.mk.injEq] at hl
  constructor
  · intro id hid
    rw [hn] at hid
    simp only [Placed, hq, hw', ht]
    rcases h.placed id hid with hp | ⟨j, st, hb, rfl⟩ | ⟨outcome', he⟩ | hp
    · exact .inl hp
    · rw [hw] at hb
      obtain ⟨rfl, -⟩ := Worker.busy.inj (Option.some.inj hb)
      exact .inr (.inr (.inl ⟨outcome, List.mem_cons_self⟩))
    · exact .inr (.inr (.inl ⟨outcome', List.mem_cons_of_mem _ he⟩))
    · exact .inr (.inr (.inr hp))
  · intro _
    rw [hw']
    rfl
  · rw [ht]
    refine ⟨?_, h.ended⟩
    cases outcome with
    | done =>
        intro hid
        cases hop : isConnect job.op with
        | true => exact (hsound hop).1
        | false => exact absurd (hk hop) hid
    | cancelled => exact h.cancel.symm.trans hsound
    | failed => trivial
  · exact reported_finish job outcome h.cancel h.failed
  · exact h.refused
  · rw [hc, ht]
    cases outcome with
    | done | cancelled | failed => exact h.cancel
  · rw [hq]
    exact h.queued
  · intro j st hb
    rw [hw'] at hb
    cases hb
  · rw [(finish_kept s.nm job outcome).1, hcall]
    exact h.behind
  · exact fun hwatch => hl.2.trans (h.listener (hl.1.symm.trans hwatch))
  · intro result error hr
    exact h.refusing result error (guarded_finish hr)

/-- An operation that ends leaves something to come: a failure in the idle queue,
or an activated profile where the listener is there. -/
theorem hearing_finish {job : Job} {outcome : Outcome} (h : Hearing b)
    (hw : b.worker = some (.busy job (.ended outcome))) (hs : Sound b job (.ended outcome))
    (hdone : outcome = .done → isConnect job.op = true → b.caller = .idle → b.idle = [] →
      (∀ j ∈ b.queue, isConnect j.op = false) → b.watch = true) : Hearing (finish b job outcome) := by
  obtain ⟨-, hm⟩ := trace_finish b job outcome
  obtain ⟨more, hi⟩ := idle_finish b job outcome
  simp only [machine, Prod.mk.injEq] at hm
  obtain ⟨hq, -, hc, hcall, -⟩ := hm
  have hactive := (finish_kept b job outcome).2.2
  have hl := congrArg Prod.fst (listener_stepStage b job {} (.ended outcome))
  by_cases hcaller : b.caller = .idle
  · by_cases hidle : b.idle = []
    · rcases h with h | h | ⟨j, hj, hop⟩ | ⟨j, stage, hb, hop, hcancel⟩ | ⟨hwatch, ha⟩
      · exact absurd hcaller h
      · exact absurd hidle h
      · exact .inr (.inr (.inl ⟨j, hq ▸ hj, hop⟩))
      · obtain ⟨rfl, -⟩ := Worker.busy.inj (Option.some.inj (hw.symm.trans hb))
        cases outcome with
        | done =>
            by_cases hn : ∃ j ∈ b.queue, isConnect j.op = true
            · obtain ⟨j, hj, hop⟩ := hn
              exact .inr (.inr (.inl ⟨j, hq ▸ hj, hop⟩))
            · have hwatch := hdone rfl hop hcaller hidle fun j hj =>
                Bool.eq_false_iff.mpr fun hop => hn ⟨j, hj, hop⟩
              exact .inr (.inr (.inr (.inr ⟨hl.trans hwatch, hactive ▸ (hs hop).2⟩)))
        | cancelled => exact absurd (hcancel.symm.trans hs) Bool.false_ne_true
        | failed message =>
            refine .inr (.inl ?_)
            simp [finish, log, hcancel]
      · exact .inr (.inr (.inr (.inr ⟨hl.trans hwatch, hactive ▸ ha⟩)))
    · refine .inr (.inl ?_)
      rw [hi]
      exact fun hn => hidle (List.append_eq_nil_iff.mp hn).1
  · exact .inl (by rw [hcall]; exact hcaller)

theorem hearing_moved {job : Job} {stage : Stage} (h : Hearing b) (hs : ∀ outcome, stage ≠ .ended outcome)
    (hw : b.worker = some (.busy job stage)) (hsound : Sound b job stage) (e : Answers)
    (hlast : b.caller = .idle → b.idle = [] → isConnect job.op = false →
      ∃ j ∈ b.queue, isConnect j.op = true) : Hearing (stepStage b job e stage) := by
  obtain ⟨events, next, hm⟩ := moved_stepStage b job e hs
  have hl := congrArg Prod.fst (listener_stepStage b job e stage)
  have hf := hm.kept
  simp only [frame, Prod.mk.injEq] at hf
  obtain ⟨hq, hc, -, hcall, hidle, -⟩ := hf
  by_cases hcaller : b.caller = .idle
  · by_cases hempty : b.idle = []
    · rcases h with h | h | ⟨j, hj, hop⟩ | ⟨j, st, hb, hop, hcancel⟩ | ⟨hwatch, ha⟩
      · exact absurd hcaller h
      · exact absurd hempty h
      · exact .inr (.inr (.inl ⟨j, hq ▸ hj, hop⟩))
      · obtain ⟨rfl, -⟩ := Worker.busy.inj (Option.some.inj (hw.symm.trans hb))
        exact .inr (.inr (.inr (.inl ⟨job, next, hm.worker, hop, hc.trans hcancel⟩)))
      · by_cases hd : stage = .disconnecting
        · subst hd
          obtain ⟨j, hj, hop⟩ := hlast hcaller hempty hsound
          exact .inr (.inr (.inl ⟨j, hq ▸ hj, hop⟩))
        · exact .inr (.inr (.inr (.inr ⟨hl.trans hwatch, active_stepStage hd ha⟩)))
    · exact .inr (.inl (by rw [hidle]; exact hempty))
  · exact .inl (by rw [hcall]; exact hcaller)

theorem Flagged.connect_behind (h : Flagged s) {job : Job} {stage : Stage}
    (hw : s.nm.worker = some (.busy job stage)) (hcall : s.nm.caller = .idle) (hidle : s.nm.idle = [])
    (hop : isConnect job.op = false) : ∃ j ∈ s.nm.queue, isConnect j.op = true := by
  obtain ⟨hlast, hne⟩ := h.last hcall hidle
  have hq := hne job stage hw hop
  exact ⟨_, List.getLast_mem hq, hlast _ (List.getLast?_eq_some_getLast hq)⟩

theorem Flagged.retired (h : Flagged s) (hw : s.nm.worker = some .looping) :
    Flagged { s with nm := { s.nm with worker := none } } where
  unsuppressed := h.unsuppressed
  watched := h.watched
  hearing := by
    rcases h.hearing with h | h | h | ⟨j, stage, hb, -⟩ | h
    · exact .inl h
    · exact .inr (.inl h)
    · exact .inr (.inr (.inl h))
    · rw [hw] at hb; cases hb
    · exact .inr (.inr (.inr (.inr h)))
  last hc hi := ⟨(h.last hc hi).1, fun _ _ hb => by cases hb⟩

theorem Flagged.taken (h : Flagged s) {job : Job} {rest : List Job} (hw : s.nm.worker = some .looping)
    (hq : s.nm.queue = job :: rest) :
    Flagged { s with
      nm := log (toStage { s.nm with queue := rest, cancel := false, suppress := false } job
        (firstStage job.op)) (.started job.id) } where
  unsuppressed _ := rfl
  watched := h.watched
  hearing := by
    rcases h.hearing with h | h | ⟨j, hj, hop⟩ | ⟨j, stage, hb, -⟩ | h
    · exact .inl h
    · exact .inr (.inl h)
    · rw [hq] at hj
      rcases List.mem_cons.mp hj with rfl | hj
      · exact .inr (.inr (.inr (.inl ⟨j, _, rfl, hop, rfl⟩)))
      · exact .inr (.inr (.inl ⟨j, hj, hop⟩))
    · rw [hw] at hb; cases hb
    · exact .inr (.inr (.inr (.inr h)))
  last hc hi := by
    have hl := (h.last hc hi).1
    rw [hq] at hl
    refine ⟨fun j hj => hl j ?_, fun j stage hb hop => ?_⟩
    · cases rest with
      | nil => cases hj
      | cons => exact hj
    · obtain ⟨rfl, -⟩ := Worker.busy.inj (Option.some.inj hb)
      rintro rfl
      exact absurd ((hl job rfl).symm.trans hop) (by decide)

theorem Flagged.moved (hb : Backing s) (h : Flagged s) {job : Job} {stage : Stage}
    (hs : ∀ outcome, stage ≠ .ended outcome) (hw : s.nm.worker = some (.busy job stage)) (e : Answers) :
    Flagged { s with nm := stepStage s.nm job e stage } := by
  obtain ⟨events, next, hm⟩ := moved_stepStage s.nm job e hs
  have hl := listener_stepStage s.nm job e stage
  have hf := hm.kept
  simp only [frame, Prod.mk.injEq] at hf
  obtain ⟨hq, -, hsup, hcall, hidle, -⟩ := hf
  simp only [listener, Prod.mk.injEq] at hl
  constructor
  · rw [hcall, hsup]
    exact h.unsuppressed
  · rw [hl.1, hl.2]
    exact h.watched
  · exact hearing_moved h.hearing hs hw (hb.running job stage hw).2 e fun hc hi => h.connect_behind hw hc hi
  · rw [hcall, hidle, hq]
    intro hc hi
    refine ⟨(h.last hc hi).1, fun j st hb => ?_⟩
    obtain ⟨rfl, -⟩ := Worker.busy.inj (Option.some.inj (hm.worker.symm.trans hb))
    exact (h.last hc hi).2 job stage hw

theorem Flagged.finished (hb : Backing s) (h : Flagged s) {job : Job} {outcome : Outcome}
    (hw : s.nm.worker = some (.busy job (.ended outcome)))
    (hdone : outcome = .done → isConnect job.op = true → s.nm.caller = .idle → s.nm.idle = [] →
      (∀ j ∈ s.nm.queue, isConnect j.op = false) → s.nm.dbus = true) :
    Flagged { s with nm := finish s.nm job outcome } := by
  obtain ⟨-, hm⟩ := trace_finish s.nm job outcome
  have hl := listener_stepStage s.nm job {} (.ended outcome)
  simp only [machine, Prod.mk.injEq] at hm
  obtain ⟨hq, hw', -, hcall, -⟩ := hm
  simp only [listener, Prod.mk.injEq] at hl
  constructor
  · rw [hcall, (finish_kept s.nm job outcome).1]
    exact h.unsuppressed
  · exact fun hd => hl.1.trans (h.watched (hl.2.symm.trans hd))
  · exact hearing_finish h.hearing hw (hb.running job _ hw).2 fun ho hop hc hi hn =>
      h.watched (hdone ho hop hc hi hn)
  · intro hc hi
    obtain ⟨more, hmore⟩ := idle_finish s.nm job outcome
    have hidle : s.nm.idle = [] := (List.append_eq_nil_iff.mp (hmore.symm.trans hi)).1
    rw [hq]
    exact ⟨(h.last (hcall.symm.trans hc) hidle).1, fun j st hb => by rw [hw'] at hb; cases hb⟩

theorem flagged_dial (s : Desk) (config : Option (List Char)) :
    Flagged (dial s (some false) (some config)) := by
  have hop : isConnect (.connect config) = true := rfl
  by_cases ha : auditOvpnContent config = []
  · have hd : (dial s (some false) (some config)).nm =
        dispatchOffUiThread (startWatch s.nm) (.connect config) := by
      simp only [dial, connect, ha, ne_eq, not_true_eq_false, if_false]
    have hq : (dial s (some false) (some config)).nm.queue = s.nm.queue ++
      [⟨s.nm.nextId, .connect config⟩] := by
      rw [hd]; rfl
    refine ⟨fun _ => by rw [hd]; rfl, fun hdb => ?_, .inr (.inr (.inl ?_)), fun _ _ =>
      ⟨fun job hj => ?_, ?_⟩⟩
    · rw [hd] at hdb ⊢
      exact Bool.or_eq_true_iff.mpr (.inr hdb)
    · exact ⟨_, by rw [hq]; exact List.mem_append_right _ (List.mem_singleton_self _), hop⟩
    · rw [hq, List.getLast?_append, List.getLast?_singleton] at hj
      obtain rfl := Option.some.inj hj
      exact hop
    · intro _ _ _ _
      rw [hq]
      exact List.append_ne_nil_of_right_ne_nil _ (List.cons_ne_nil _ _)
  · have hd : (dial s (some false) (some config)).nm =
        { startWatch s.nm with
          idle := s.nm.idle ++ [.guarded (.bool false) (some (refusal (auditOvpnContent config)))] } := by
      simp only [dial, connect, ha, ne_eq, not_false_eq_true, if_true]
      rfl
    have hne : (dial s (some false) (some config)).nm.idle ≠ [] := by
      rw [hd]
      exact List.append_ne_nil_of_right_ne_nil _ (List.cons_ne_nil _ _)
    refine ⟨fun _ => by rw [hd]; rfl, fun hdb => ?_, .inr (.inl hne), fun _ he => absurd he hne⟩
    rw [hd] at hdb ⊢
    exact Bool.or_eq_true_iff.mpr (.inr hdb)

theorem Backing.dial (h : Backing s) (hi : s.nm.caller = .idle) (up : Option Bool)
    (chosen : Option (Option (List Char))) : Backing (dial s up chosen) := by
  have hw := h.startWatch hi
  cases up with
  | none => cases chosen with | none | some => exact hw
  | some up =>
      cases up with
      | true =>
          have hd := hw.dispatched .disconnect (s.nm.nextId :: s.disconnects)
            (fun id hid => List.mem_cons_of_mem _ hid) fun _ => List.mem_cons_self
          cases chosen with | none | some => exact hd
      | false =>
          cases chosen with
          | none => exact hw
          | some config =>
              by_cases ha : auditOvpnContent config = []
              · have hd := hw.dispatched (.connect config) _ (fun _ => id) fun hop => Bool.noConfusion hop
                simp only [NmDesk.dial, connect, ha, ne_eq, not_true_eq_false, if_false, if_true]
                exact ⟨hd.placed, hd.alive, hd.ended, hd.failed, hd.refused, hd.cancel, hd.queued,
                  hd.running, hd.behind, hd.listener, hd.refusing⟩
              · simp only [NmDesk.dial, connect, ha, ne_eq, not_false_eq_true, if_true, if_false]
                refine hw.of_still rfl [] rfl id hw.cancel hw.ended ?_ hw.refused (fun r hr => ?_)
                  fun result error hm => ?_
                · simpa [reports, waiting, NmWorker.startWatch] using h.failed
                · refine ⟨?_, fun hs => ?_⟩
                  · rcases List.mem_append.mp hr with hr | hr
                    · exact (h.behind r hr).1
                    · exact (List.mem_singleton.mp hr).le
                  · rcases hs with hs | hs
                    · exact absurd hs Bool.false_ne_true
                    · exact absurd hi hs
                · rcases List.mem_append.mp hm with hm | hm
                  · exact h.refusing result error hm
                  · obtain ⟨rfl, rfl⟩ := Idle.guarded.inj (List.mem_singleton.mp hm)
                    rfl

theorem Backing.signal (h : Backing s) (result : Result) (error : Option String) (attempt : Bool) :
    Backing { s with nm := guardedCallback s.nm result error, attempt } := by
  simp only [guardedCallback]
  split
  · exact h.of_callback rfl (.inl rfl) rfl rfl h.refused h.behind h.refusing
  · exact h.of_callback rfl (.inr ⟨result, error, rfl⟩) rfl rfl h.refused h.behind h.refusing

theorem Flagged.signal (h : Flagged s) (result : Result) (error : Option String) (attempt : Bool) :
    Flagged { s with nm := guardedCallback s.nm result error, attempt } := by
  simp only [guardedCallback]
  split <;> exact ⟨h.unsuppressed, h.watched, h.hearing, h.last⟩

theorem Backing.silent (h : Backing s) :
    (s.silent || (s.nm.suppress && decide (s.refusals.head? = some s.cancels))) = false := by
  rw [h.refused, Bool.false_or, Bool.and_eq_false_iff, decide_eq_false_iff_not]
  by_cases hs : s.nm.suppress = true
  · refine .inr fun hr => ?_
    exact Nat.lt_irrefl _ ((h.behind _ (List.mem_of_head? hr)).2 (.inl hs))
  · exact .inl (Bool.eq_false_iff.mpr hs)

theorem Backing.idleCallback (h : Backing s) (ht : step s .idleCallback = some t) : Backing t := by
  obtain ⟨nm, hn, rfl⟩ := Option.map_eq_some_iff.mp ht
  have hpopped {result : Result} {error : Option String} {first : Idle} {rest : List Idle}
      (hidle : s.nm.idle = first :: rest) (hm : Idle.guarded result error ∈ rest) :
      settles result error = true :=
    h.refusing result error (hidle ▸ List.mem_cons_of_mem _ hm)
  have hbehind : ∀ r ∈ s.refusals.tail,
      r ≤ s.cancels ∧ (s.nm.suppress = true ∨ s.nm.caller ≠ .idle → r < s.cancels) :=
    fun r hr => h.behind r (List.mem_of_mem_tail hr)
  cases step_cases hn with
  | answered result error rest hi hidle hs =>
      have hr : reports s = s.told ++ (waiting rest).map (messageOf s.nm.messages) := by
        simp [reports, waiting, hidle]
      simp only [receive, hidle]
      exact h.of_callback rfl (.inr ⟨result, error, rfl⟩) rfl hr.symm h.silent hbehind
        fun _ _ hm => hpopped hidle hm
  | unanswered result error rest hi hidle hs =>
      have hr : reports s = s.told ++ (waiting rest).map (messageOf s.nm.messages) := by
        simp [reports, waiting, hidle]
      simp only [receive, hidle]
      exact h.of_callback rfl (.inl rfl) rfl hr.symm h.silent hbehind fun _ _ hm => hpopped hidle hm
  | notified runner rest hi hidle =>
      have hr : reports s = s.told ++ [messageOf s.nm.messages runner] ++ (waiting rest).map (messageOf s.nm.messages) := by
        simp [reports, waiting, hidle]
      simp only [receive, hidle]
      exact h.of_callback rfl (.inr ⟨_, _, rfl⟩) rfl hr.symm h.refused h.behind
        fun _ _ hm => hpopped hidle hm

theorem attempt_idleCallback (hb : Backing s) (h : s.attempt = true → Flagged s)
    (ht : step s .idleCallback = some t) : t.attempt = false := by
  obtain ⟨nm, hn, rfl⟩ := Option.map_eq_some_iff.mp ht
  cases step_cases hn with
  | answered result error rest hi hidle hs =>
      have hsettles := hb.refusing result error (hidle ▸ List.mem_cons_self)
      simp only [receive, hidle, heedGuarded, hs, Bool.false_eq_true, if_false]
      exact heed_false_of_settles hsettles s.attempt
  | unanswered result error rest hi hidle hs =>
      simp only [receive, hidle, heedGuarded, hs, if_true]
      by_contra ha
      exact Bool.false_ne_true (((h (Bool.not_eq_false _ ▸ ha)).unsuppressed hi).symm.trans hs)
  | notified runner rest hi hidle =>
      simp only [receive, hidle]
      exact heed_false_of_settles rfl s.attempt

theorem announced_of_finish (hb : Backing s) {job : Job}
    (hw : s.nm.worker = some (.busy job (.ended .done)))
    (hp : s.attempt = true → Hearing (finish s.nm job .done)) (e : Answers) : Announced s (.worker e) := by
  intro j hj hop ha hcall hidle hn
  obtain ⟨rfl, -⟩ := Worker.busy.inj (Option.some.inj (hw.symm.trans hj))
  rcases hp ha with h | h | ⟨j, hm, hc⟩ | ⟨j, stage, hbusy, -⟩ | ⟨hwatch, -⟩
  · exact absurd hcall h
  · exact absurd hidle h
  · exact absurd (hc.symm.trans (hn j hm)) (by decide)
  · cases hbusy
  · exact hb.listener hwatch

theorem step_worker {e : Answers} (hb : Backing s) (hf : s.attempt = true → Flagged s)
    (ht : step s (.worker e) = some t) :
    Backing t ∧ (Announced s (.worker e) → t.attempt = true → Flagged t) ∧
      (Followed t → Announced s (.worker e)) := by
  have hquiet : (∀ job, s.nm.worker ≠ some (.busy job (.ended .done))) → Announced s (.worker e) :=
    fun hn job hw => absurd hw (hn job)
  obtain ⟨nm, hn, rfl⟩ := Option.map_eq_some_iff.mp ht
  cases step_cases hn with
  | retired _ hw hq =>
      have ha := hquiet fun job hbusy => by rw [hw] at hbusy; cases hbusy
      exact ⟨hb.retired hw hq, fun _ hat => (hf hat).retired hw, fun _ => ha⟩
  | taken _ job rest hw hq =>
      have ha := hquiet fun job hbusy => by rw [hw] at hbusy; cases hbusy
      exact ⟨hb.taken hw hq, fun _ hat => (hf hat).taken hw hq, fun _ => ha⟩
  | worked _ job stage hw =>
      have hstage {j : Job} {next : Stage} (hj : s.nm.worker = some (.busy j next)) : stage = next :=
        (Worker.busy.inj (Option.some.inj (hw.symm.trans hj))).2
      by_cases hs : ∃ outcome, stage = .ended outcome
      · obtain ⟨outcome, rfl⟩ := hs
        refine ⟨hb.finished hw, fun ha hat => (hf hat).finished hb hw ?_, fun hp => ?_⟩
        · rintro rfl hop hcall hidle hn
          exact ha job hw hop hat hcall hidle hn
        · cases outcome with
          | done => exact announced_of_finish hb hw hp.pending e
          | cancelled | failed => exact hquiet fun j hj => by cases hstage hj
      · have hs : ∀ outcome, stage ≠ .ended outcome := fun outcome ho => hs ⟨outcome, ho⟩
        have ha := hquiet fun j hj => hs .done (hstage hj)
        exact ⟨hb.moved hs hw e, fun _ hat => .moved hb (hf hat) hs hw e, fun _ => ha⟩

theorem attempt_dial (hs : s.attempt = false) (up : Option Bool) (chosen : Option (Option (List Char))) :
    (dial s up chosen).attempt = clicked false (decide (up ≠ some false)) chosen.isSome [] := by
  cases up with
  | none => cases chosen with | none | some => exact hs
  | some up =>
      cases up with
      | true => cases chosen with | none | some => exact hs
      | false =>
          cases chosen with
          | none => exact hs
          | some config => rfl

theorem step_iff {action : Action} (hb : Backing s) (hf : s.attempt = true → Flagged s)
    (ht : step s action = some t) :
    Backing t ∧ (Announced s action → t.attempt = true → Flagged t) ∧
      (Followed t → Announced s action) := by
  cases action with
  | worker e => exact step_worker hb hf ht
  | click up chosen =>
      simp only [step] at ht
      split_ifs at ht with ha hi
      · obtain ⟨nm, hn, rfl⟩ := Option.map_eq_some_iff.mp ht
        cases step_cases hn
        have hne : Caller.flagged ≠ .idle := by decide
        exact ⟨hb.cancelFlag, fun _ _ => ⟨fun hc => absurd hc hne, (hf ha).watched, .inl hne,
          fun hc => absurd hc hne⟩, fun _ => trivial⟩
      · obtain rfl := Option.some.inj ht
        refine ⟨hb.dial hi up chosen, fun _ hat => ?_, fun _ => trivial⟩
        rw [attempt_dial (Bool.eq_false_iff.mpr ha)] at hat
        obtain ⟨hup, hsome⟩ : up = some false ∧ chosen ≠ none := by simpa [clicked] using hat
        obtain ⟨config, rfl⟩ := Option.ne_none_iff_exists'.mp hsome
        exact hup ▸ flagged_dial s config
  | cancelSuppress =>
      obtain ⟨nm, hn, rfl⟩ := Option.map_eq_some_iff.mp ht
      cases step_cases hn with
      | suppressed hc =>
          have hne : Caller.suppressed ≠ .idle := by decide
          exact ⟨hb.cancelSuppress hc, fun _ hat => ⟨fun hc => absurd hc hne, (hf hat).watched, .inl hne,
            fun hc => absurd hc hne⟩, fun _ => trivial⟩
  | cancelClear =>
      obtain ⟨nm, hn, rfl⟩ := Option.map_eq_some_iff.mp ht
      cases step_cases hn with
      | cleared hc =>
          exact ⟨hb.cancelClear hc false, fun _ hat => Bool.noConfusion hat, fun _ => trivial⟩
  | signal result error =>
      obtain ⟨nm, hn, rfl⟩ := Option.map_eq_some_iff.mp ht
      simp only [NmWorker.step] at hn
      split_ifs at hn
      obtain rfl := Option.some.inj hn
      refine ⟨hb.signal result error _, fun _ hat => (hf ?_).signal result error _, fun _ => trivial⟩
      simp only [heedGuarded, heed] at hat
      split_ifs at hat
      · exact hat
      · exact (Bool.and_eq_true_iff.mp hat).1
  | idleCallback =>
      refine ⟨hb.idleCallback ht, fun _ hat => ?_, fun _ => trivial⟩
      exact absurd ((attempt_idleCallback hb hf ht).symm.trans hat) Bool.false_ne_true

end EovpnPro.NmDesk
