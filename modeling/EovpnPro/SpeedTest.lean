import Mathlib.Order.Lattice
import EovpnPro.ConfigSource
import EovpnPro.OvpnParser
import EovpnPro.Runs

namespace EovpnPro.SpeedTest

open ConfigSource OvpnParser Runs

variable {R : Type} [LinearOrder R]

def maxWorkers : Int := 16

def maxEndpointsPerConfig : Nat := 16

/-- One endpoint of a configuration, with what `ping_host` does there: it answers, or
raises what it does not catch. -/
structure Probe (R : Type) where
  host : List Char
  port : Nat
  outcome : Except Unit (Option R)

def Probe.valid (probe : Probe R) : Bool := decide (probe.host ≠ [] ∧ 1 ≤ probe.port ∧ probe.port ≤ 65535)

/-- The files of the managed directory by their lines, and the outcome of the ping of
each endpoint of each. -/
structure Net (R : Type) where
  digits : Digits
  lines : String → Option (List (List Char))
  ping : String → Nat → Except Unit (Option R)

def probes (net : Net R) (file : String) : List (Probe R) :=
  (parseOvpnRemote net.digits (net.lines file)).zipIdx.map fun entry =>
    ⟨entry.1.1, entry.1.2, net.ping file entry.2⟩

def better (best rtt : Option R) : Option R :=
  match rtt, best with
  | none, best => best
  | some rtt, none => some rtt
  | some rtt, some best => if rtt < best then some rtt else some best

/-- Where `test_single_ovpn` is: queued, taken out of the queue, at the head of its
loop, about to ping, or finished, which is without a value where it raised. -/
inductive Worker (R : Type)
  | pending
  | cancelled
  | looping (rest : List (Probe R)) (best : Option R)
  | pinging (probe : Probe R) (rest : List (Probe R)) (best : Option R)
  | finished (result : Option (Option R))

/-- One atomic step of a worker, which may read the cancel event. -/
def workerStep (net : Net R) (event : Bool) (file : String) : Worker R → Option (Worker R)
  | .pending =>
      if probes net file = [] then some (.finished (some none))
      else some (.looping ((probes net file).take maxEndpointsPerConfig) none)
  | .looping [] best => some (.finished (some best))
  | .looping (probe :: rest) best =>
      if event then some (.finished (some none))
      else if probe.valid then some (.pinging probe rest best)
      else some (.looping rest best)
  | .pinging probe rest best =>
      match probe.outcome with
      | .ok rtt => some (.looping rest (better best rtt))
      | .error _ => some (.finished none)
  | .cancelled | .finished _ => none

/-- The loop of `test_single_ovpn` while the cancel event is not set. It is without a
value where it raises. -/
def measure : List (Probe R) → Option R → Option (Option R)
  | [], best => some best
  | probe :: rest, best =>
      if probe.valid then
        match probe.outcome with
        | .ok rtt => measure rest (better best rtt)
        | .error _ => none
      else measure rest best

/-- `test_single_ovpn` in a run that is not cancelled. -/
def testSingleOvpn (net : Net R) (file : String) : Option (Option R) :=
  if probes net file = [] then some none else measure ((probes net file).take maxEndpointsPerConfig) none

/-- Where `test_all_configs` is: at its entry, at the head of the submitting loop, about
to submit a file, waiting for a future, with one that `as_completed` gave out, about
to record it, inside the exit of the executor, or back. -/
inductive Collector
  | entry
  | submitting (rest : List String)
  | submit (file : String) (rest : List String)
  | collecting
  | given (future : Nat) (file : String)
  | record (future : Nat) (file : String)
  | leaving
  | returned
  deriving DecidableEq, Repr

/-- The cancel event, the collector, the futures in the order of their submission, those
that were not given out yet, and the results. -/
structure Batch (R : Type) where
  event : Bool
  collector : Collector := .entry
  tasks : List (String × Worker R) := []
  waiting : List (Nat × String) := []
  results : List (String × Option R) := []

def assign (results : List (String × Option R)) (file : String) (rtt : Option R) :
    List (String × Option R) :=
  if results.any (fun entry => decide (entry.1 = file)) then
    results.map fun entry => if entry.1 = file then (file, rtt) else entry
  else results ++ [(file, rtt)]

def validFiles (fileList : List String) : List String :=
  fileList.filter fun file => decide (file ≠ "") && endsWith file ".ovpn"

def isRunning : Worker R → Bool
  | .looping _ _ | .pinging _ _ _ => true
  | _ => false

def isOver : Worker R → Bool
  | .cancelled | .finished _ => true
  | _ => false

/-- `Future.cancel` -/
def cancelPending : Worker R → Worker R
  | .pending => .cancelled
  | worker => worker

/-- One atomic step of the collector. `pick` is the future that `as_completed` gives
out next, among those that are finished. -/
def collectorStep (files : List String) (pick : Nat) (s : Batch R) : Option (Batch R) :=
  match s.collector with
  | .entry => some { s with collector := if files = [] ∨ s.event = true then .returned else .submitting files }
  | .submitting [] => some { s with collector := .collecting }
  | .submitting (file :: rest) =>
      some { s with collector := if s.event then .collecting else .submit file rest }
  | .submit file rest =>
      some { s with
        collector := .submitting rest
        tasks := s.tasks ++ [(file, .pending)]
        waiting := s.waiting ++ [(s.tasks.length, file)] }
  | .collecting =>
      if s.waiting = [] then some { s with collector := .leaving }
      else
        match s.waiting.find? fun entry => entry.1 = pick, s.tasks[pick]? with
        | some entry, some (_, .finished _) =>
            some { s with collector := .given entry.1 entry.2, waiting := s.waiting.erase entry }
        | _, _ => none
  | .given future file =>
      if s.event then
        some { s with collector := .leaving, tasks := s.tasks.map fun task =>
          (task.1, cancelPending task.2) }
      else some { s with collector := .record future file }
  | .record future file =>
      match s.tasks[future]? with
      | some (_, .finished result) =>
          some { s with collector := .collecting, results := assign s.results file result.join }
      | _ => none
  | .leaving => if s.tasks.all fun task => isOver task.2 then some { s with collector := .returned } else none
  | .returned => none

def free (workers : Int) (s : Batch R) (future : Nat) : Bool :=
  decide (((s.tasks.filter fun task => isRunning task.2).length : Int) < max 1 (min workers maxWorkers)) &&
    (s.tasks.take future).all fun task => match task.2 with | .pending => false | _ => true

inductive Action
  | cancel
  | collect (pick : Nat)
  | work (future : Nat)
  deriving DecidableEq, Repr

def step (net : Net R) (workers : Int) (files : List String) (s : Batch R) : Action → Option (Batch R)
  | .cancel => some { s with event := true }
  | .collect pick => collectorStep files pick s
  | .work future =>
      match s.tasks[future]? with
      | some (file, worker) =>
          if isRunning worker || free workers s future then
            (workerStep net s.event file worker).map fun next =>
              { s with tasks := s.tasks.set future (file, next) }
          else none
      | none => none

def counted (list : List (Probe R)) : List (Probe R) :=
  (list.take maxEndpointsPerConfig).filter fun probe => decide (1 ≤ probe.port ∧ probe.port ≤ 65535)

def raises (probe : Probe R) : Bool :=
  match probe.outcome with
  | .ok _ => false
  | .error _ => true

def rtt (probe : Probe R) : Option R :=
  match probe.outcome with
  | .ok rtt => rtt
  | .error _ => none

/-- What a configuration is worth: the least time of the endpoints that count, or
nothing where none of them answers or one of them raises. -/
def bestRtt (list : List (Probe R)) : Option R :=
  if (counted list).any raises then none else ((counted list).filterMap rtt).min?

variable {net : Net R} {workers : Int} {files : List String} {s t : Batch R} {event : Bool} {file : String}

theorem min_better (best new : Option R) (times : List R) :
    ((better best new).toList ++ times).min? = (best.toList ++ (new.toList ++ times)).min? := by
  cases new with
  | none => rfl
  | some rtt =>
      cases best with
      | none => rfl
      | some best =>
          have hmin : better (some best) (some rtt) = some (min best rtt) := by
            simp only [better]
            split
            · rename_i h
              rw [min_eq_right h.le]
            · rename_i h
              rw [min_eq_left (not_lt.mp h)]
          rw [hmin]
          rfl

theorem measure_eq (list : List (Probe R)) (best : Option R) :
    measure list best =
      if (list.filter Probe.valid).any raises then none
      else some (best.toList ++ (list.filter Probe.valid).filterMap rtt).min? := by
  induction list generalizing best with
  | nil =>
      cases best with
      | none => rfl
      | some best => rfl
  | cons probe rest ih =>
      rw [measure]
      by_cases hv : probe.valid = true
      · rw [if_pos hv, List.filter_cons_of_pos hv]
        cases ho : probe.outcome with
        | error e => simp [raises, ho]
        | ok new =>
            have hrtt : rtt probe = new := by simp only [rtt, ho]
            have hraise : raises probe = false := by simp only [raises, ho]
            simp only [ih, List.any_cons, hraise, Bool.false_or, List.filterMap_cons, hrtt]
            rw [min_better]
            cases new <;> rfl
      · rw [if_neg hv, List.filter_cons_of_neg hv]
        exact ih best

omit [LinearOrder R] in
theorem valid_eq_counted (net : Net R) (file : String) :
    ((probes net file).take maxEndpointsPerConfig).filter Probe.valid = counted (probes net file) := by
  refine List.filter_congr fun probe hmem => ?_
  obtain ⟨entry, hentry, rfl⟩ := List.mem_map.mp (List.mem_of_mem_take hmem)
  have hhost := parseOvpnRemote_host (List.fst_mem_of_mem_zipIdx hentry)
  simp only [Probe.valid, ne_eq, hhost, not_false_eq_true, true_and]

theorem testSingleOvpn_eq (net : Net R) (file : String) :
    (testSingleOvpn net file).join = bestRtt (probes net file) := by
  rw [testSingleOvpn]
  split
  · rename_i h
    rw [h]
    rfl
  · rw [measure_eq, valid_eq_counted, bestRtt]
    split <;> rfl

/-- What is left of a test leads to the value that it has when it is not cancelled.
Only a worker that saw the event may be finished with another one. -/
def Settled (net : Net R) (event : Bool) (file : String) : Worker R → Prop
  | .pending | .cancelled => True
  | .looping rest best => measure rest best = testSingleOvpn net file
  | .pinging probe rest best => probe.valid = true ∧ measure (probe :: rest) best = testSingleOvpn net file
  | .finished result => result = testSingleOvpn net file ∨ event = true

theorem Settled.cancel {worker : Worker R} (h : Settled net event file worker) :
    Settled net true file worker := by
  cases worker with
  | finished result => exact .inr rfl
  | pending | cancelled | looping | pinging => exact h

theorem workerStep_settled {worker next : Worker R} (h : Settled net event file worker)
    (hstep : workerStep net event file worker = some next) : Settled net event file next := by
  cases worker with
  | cancelled | finished => cases hstep
  | pending =>
      rw [workerStep] at hstep
      split at hstep
      · rename_i hnone
        cases hstep
        exact .inl (by rw [testSingleOvpn, if_pos hnone])
      · rename_i hsome
        cases hstep
        exact (if_neg hsome).symm
  | looping rest best =>
      cases rest with
      | nil =>
          cases hstep
          exact .inl h
      | cons probe rest =>
          rw [workerStep] at hstep
          split at hstep
          · rename_i hevent
            cases hstep
            exact .inr hevent
          · split at hstep
            · rename_i hvalid
              cases hstep
              exact ⟨hvalid, h⟩
            · rename_i hinvalid
              cases hstep
              rw [Settled, measure, if_neg hinvalid] at h
              exact h
  | pinging probe rest best =>
      obtain ⟨hvalid, h⟩ := h
      rw [measure, if_pos hvalid] at h
      rw [workerStep] at hstep
      cases ho : probe.outcome with
      | ok new =>
          simp only [ho] at hstep h
          cases hstep
          exact h
      | error e =>
          simp only [ho] at hstep h
          cases hstep
          exact .inl h

/-- The future that the collector holds is finished, and after the check of the event
it is so with the value of a test that was not cut short. -/
def Held (net : Net R) (tasks : List (String × Worker R)) : Collector → Prop
  | .given future file => ∃ result, tasks[future]? = some (file, .finished result)
  | .record future file => tasks[future]? = some (file, .finished (testSingleOvpn net file))
  | _ => True

/-- The futures, what of them is still to be given out, and the results belong together. -/
structure Sound (net : Net R) (s : Batch R) : Prop where
  tasks : ∀ task ∈ s.tasks, Settled net s.event task.1 task.2
  waiting : ∀ entry ∈ s.waiting, (s.tasks[entry.1]?).map Prod.fst = some entry.2
  held : Held net s.tasks s.collector
  results : ∀ entry ∈ s.results, entry.2 = (testSingleOvpn net entry.1).join

omit [LinearOrder R] in
theorem mem_assign {results : List (String × Option R)} {value : Option R} {entry : String × Option R}
    (h : entry ∈ assign results file value) : entry ∈ results ∨ entry = (file, value) := by
  rw [assign] at h
  split at h
  · obtain ⟨old, hold, rfl⟩ := List.mem_map.mp h
    split
    · exact .inr rfl
    · exact .inl hold
  · rcases List.mem_append.mp h with hold | hnew
    · exact .inl hold
    · exact .inr (List.mem_singleton.mp hnew)

inductive Collected (files : List String) (s : Batch R) : Batch R → Prop
  | refused (hc : s.collector = .entry) (h : files = [] ∨ s.event = true) :
      Collected files s { s with collector := .returned }
  | entered (hc : s.collector = .entry) : Collected files s { s with collector := .submitting files }
  | submitted (hc : s.collector = .submitting []) : Collected files s { s with collector := .collecting }
  | stopped (file : String) (rest : List String) (hc : s.collector = .submitting (file :: rest))
      (he : s.event = true) : Collected files s { s with collector := .collecting }
  | checked (file : String) (rest : List String) (hc : s.collector = .submitting (file :: rest)) :
      Collected files s { s with collector := .submit file rest }
  | queued (file : String) (rest : List String) (hc : s.collector = .submit file rest) :
      Collected files s { s with
        collector := .submitting rest
        tasks := s.tasks ++ [(file, .pending)]
        waiting := s.waiting ++ [(s.tasks.length, file)] }
  | drained (hc : s.collector = .collecting) (hw : s.waiting = []) :
      Collected files s { s with collector := .leaving }
  | given (entry : Nat × String) (name : String) (result : Option (Option R)) (hc : s.collector = .collecting)
      (hm : entry ∈ s.waiting) (ht : s.tasks[entry.1]? = some (name, .finished result)) :
      Collected files s { s with collector := .given entry.1 entry.2, waiting := s.waiting.erase entry }
  | broken (future : Nat) (file : String) (hc : s.collector = .given future file) (he : s.event = true) :
      Collected files s { s with
        collector := .leaving
        tasks := s.tasks.map fun task => (task.1, cancelPending task.2) }
  | kept (future : Nat) (file : String) (hc : s.collector = .given future file) (he : s.event = false) :
      Collected files s { s with collector := .record future file }
  | recorded (future : Nat) (file name : String) (result : Option (Option R))
      (hc : s.collector = .record future file) (ht : s.tasks[future]? = some (name, .finished result)) :
      Collected files s { s with collector := .collecting, results := assign s.results file result.join }
  | left (hc : s.collector = .leaving) : Collected files s { s with collector := .returned }

omit [LinearOrder R] in
theorem collected_of_step {pick : Nat} (hstep : collectorStep files pick s = some t) :
    Collected files s t := by
  rw [collectorStep] at hstep
  split at hstep
  case h_1 hc =>
    obtain rfl := Option.some.inj hstep
    split
    · rename_i h
      exact .refused hc h
    · exact .entered hc
  case h_2 hc =>
    obtain rfl := Option.some.inj hstep
    exact .submitted hc
  case h_3 file rest hc =>
    obtain rfl := Option.some.inj hstep
    split
    · rename_i he
      exact .stopped file rest hc he
    · exact .checked file rest hc
  case h_4 file rest hc =>
    obtain rfl := Option.some.inj hstep
    exact .queued file rest hc
  case h_5 hc =>
    split at hstep
    · rename_i hw
      obtain rfl := Option.some.inj hstep
      exact .drained hc hw
    · split at hstep
      · rename_i entry name result hfind htask
        obtain rfl := Option.some.inj hstep
        have hpick : entry.1 = pick := by simpa using List.find?_some hfind
        exact .given entry name result hc (List.mem_of_find?_eq_some hfind) (hpick ▸ htask)
      · cases hstep
  case h_6 future file hc =>
    split at hstep
    · rename_i he
      obtain rfl := Option.some.inj hstep
      exact .broken future file hc he
    · rename_i he
      obtain rfl := Option.some.inj hstep
      exact .kept future file hc (Bool.eq_false_iff.mpr he)
  case h_7 future file hc =>
    split at hstep
    · rename_i name result htask
      obtain rfl := Option.some.inj hstep
      exact .recorded future file name result hc htask
    · cases hstep
  case h_8 hc =>
    split at hstep
    · obtain rfl := Option.some.inj hstep
      exact .left hc
    · cases hstep
  case h_9 => cases hstep

theorem collected_sound (h : Sound net s) (hm : Collected files s t) : Sound net t := by
  cases hm with
  | refused hc | entered hc | submitted hc | stopped file rest hc | checked file rest hc | drained hc | left hc =>
      exact ⟨h.tasks, h.waiting, trivial, h.results⟩
  | queued file rest hc =>
      refine ⟨fun task hmem => ?_, fun entry hmem => ?_, trivial, h.results⟩
      · rcases List.mem_append.mp hmem with hold | hnew
        · exact h.tasks task hold
        · rw [List.mem_singleton.mp hnew]
          trivial
      · rcases List.mem_append.mp hmem with hold | hnew
        · have hname := h.waiting entry hold
          obtain ⟨task, htask, -⟩ := Option.map_eq_some_iff.mp hname
          rw [List.getElem?_append_left (List.getElem?_eq_some_iff.mp htask).1]
          exact hname
        · rw [List.mem_singleton.mp hnew]
          simp
  | given entry name result hc hm ht =>
      have hname := h.waiting entry hm
      rw [ht, Option.map_some, Option.some.injEq] at hname
      refine ⟨h.tasks, fun other hother => h.waiting other (List.mem_of_mem_erase hother), ?_, h.results⟩
      exact ⟨result, by rw [ht, ← hname]⟩
  | broken future file hc he =>
      refine ⟨fun task hmem => ?_, fun entry hmem => ?_, trivial, h.results⟩
      · obtain ⟨⟨name, worker⟩, hold, rfl⟩ := List.mem_map.mp hmem
        cases worker with
        | pending => trivial
        | cancelled | looping | pinging | finished => exact h.tasks _ hold
      · rw [List.getElem?_map, Option.map_map]
        exact h.waiting entry hmem
  | kept future file hc he =>
      have hheld := h.held
      rw [hc] at hheld
      obtain ⟨result, htask⟩ := hheld
      refine ⟨h.tasks, h.waiting, ?_, h.results⟩
      -- The event was not set at the check, so that no worker can have seen it before.
      rcases h.tasks _ (List.mem_of_getElem? htask) with hsame | hset
      · rw [Held, htask, ← hsame]
      · rw [he] at hset
        cases hset
  | recorded future file name result hc ht =>
      have hheld := h.held
      rw [hc, Held, ht, Option.some.injEq, Prod.mk.injEq, Worker.finished.injEq] at hheld
      refine ⟨h.tasks, h.waiting, trivial, fun entry hmem => ?_⟩
      rcases mem_assign hmem with hold | rfl
      · exact h.results entry hold
      · rw [hheld.2]

theorem finished_set {tasks : List (String × Worker R)} {future other : Nat} {name : String}
    {worker next : Worker R} {result : Option (Option R)} (htask : tasks[future]? = some (name, worker))
    (hstep : workerStep net event name worker = some next)
    (h : tasks[other]? = some (file, .finished result)) :
    (tasks.set future (name, next))[other]? = some (file, .finished result) := by
  by_cases heq : future = other
  · subst other
    rw [htask, Option.some.injEq, Prod.mk.injEq] at h
    rw [h.2] at hstep
    cases hstep
  · rw [List.getElem?_set_ne heq]
    exact h

theorem step_sound {act : Action} (h : Sound net s) (hstep : step net workers files s act = some t) :
    Sound net t := by
  cases act with
  | cancel =>
      cases hstep
      exact ⟨fun task hmem => (h.tasks task hmem).cancel, h.waiting, h.held, h.results⟩
  | collect pick => exact collected_sound h (collected_of_step hstep)
  | work future =>
      simp only [step] at hstep
      cases htask : s.tasks[future]? with
      | none => simp only [htask] at hstep; cases hstep
      | some task =>
          obtain ⟨name, worker⟩ := task
          simp only [htask] at hstep
          split at hstep
          · obtain ⟨next, hnext, rfl⟩ := Option.map_eq_some_iff.mp hstep
            have hsettled : Settled net s.event name worker := h.tasks _ (List.mem_of_getElem? htask)
            refine ⟨fun task hmem => ?_, fun entry hmem => ?_, ?_, h.results⟩
            · rcases List.mem_or_eq_of_mem_set hmem with hold | rfl
              · exact h.tasks task hold
              · exact workerStep_settled hsettled hnext
            · have hname := h.waiting entry hmem
              by_cases heq : future = entry.1
              · rw [← heq, htask] at hname
                rw [← heq, List.getElem?_set_self (List.getElem?_eq_some_iff.mp htask).1]
                exact hname
              · rw [List.getElem?_set_ne heq]
                exact hname
            · have hheld := h.held
              dsimp only
              cases hc : s.collector with
              | given other file =>
                  rw [hc] at hheld
                  exact hheld.imp fun result hresult => finished_set htask hnext hresult
              | record other file =>
                  rw [hc] at hheld
                  exact finished_set htask hnext hheld
              | entry | submitting | submit | collecting | leaving | returned => trivial
          · cases hstep

/-- While the event is not set, each file has its future or its result, or is still to
be submitted. -/
def Accounted (files : List String) (s : Batch R) : Prop :=
  s.event = false →
    match s.collector with
    | .entry => s.waiting = [] ∧ s.results = []
    | .submitting rest => s.waiting.map Prod.snd ++ rest = files ∧ s.results = []
    | .submit file rest => s.waiting.map Prod.snd ++ file :: rest = files ∧ s.results = []
    | .collecting => (s.results.map Prod.fst ++ s.waiting.map Prod.snd).Perm files
    | .given _ file | .record _ file => (s.results.map Prod.fst ++ file :: s.waiting.map Prod.snd).Perm files
    | .leaving | .returned => (s.results.map Prod.fst).Perm files

omit [LinearOrder R] in
theorem assign_new {results : List (String × Option R)} {value : Option R}
    (h : file ∉ results.map Prod.fst) : assign results file value = results ++ [(file, value)] := by
  have hany : results.any (fun entry => decide (entry.1 = file)) = false := by
    rw [List.any_eq_false]
    intro entry hmem heq
    exact h (List.mem_map.mpr ⟨entry, hmem, of_decide_eq_true heq⟩)
  rw [assign, hany]
  rfl

omit [LinearOrder R] in
theorem collected_accounted (hnodup : files.Nodup) (h : Accounted files s) (hm : Collected files s t) :
    Accounted files t := by
  intro hevent
  cases hm with
  | refused hc hwhy =>
      have hs := h hevent
      simp only [hc] at hs
      have hfiles : files = [] := hwhy.resolve_right fun he => absurd he (Bool.eq_false_iff.mp hevent)
      simp [hfiles, hs.2]
  | entered hc =>
      have hs := h hevent
      simp only [hc] at hs
      exact ⟨by rw [hs.1]; rfl, hs.2⟩
  | submitted hc =>
      have hs := h hevent
      simp only [hc, List.append_nil] at hs
      dsimp only
      rw [hs.2, hs.1]
      rfl
  | queued file rest hc =>
      have hs := h hevent
      simp only [hc] at hs
      refine ⟨?_, hs.2⟩
      rw [← hs.1]
      simp
  | drained hc hw =>
      have hs := h hevent
      simp only [hc, hw, List.map_nil, List.append_nil] at hs
      exact hs
  | given entry name result hc hm ht =>
      have hs := h hevent
      simp only [hc] at hs
      have hperm := (List.perm_cons_erase hm).map Prod.snd
      exact (List.Perm.append_left _ hperm.symm).trans hs
  | stopped file rest hc he | broken future file hc he => exact absurd he (Bool.eq_false_iff.mp hevent)
  | checked file rest hc | kept future file hc | left hc =>
      have hs := h hevent
      simp only [hc] at hs
      exact hs
  | recorded future file name result hc ht =>
      have hs := h hevent
      simp only [hc] at hs
      have hnew := List.disjoint_of_nodup_append (hs.nodup_iff.mpr hnodup)
      dsimp only
      rw [assign_new fun hmem => hnew hmem List.mem_cons_self]
      simpa using hs

theorem step_accounted {act : Action} (hnodup : files.Nodup) (h : Accounted files s)
    (hstep : step net workers files s act = some t) : Accounted files t := by
  cases act with
  | cancel =>
      cases hstep
      intro hevent
      cases hevent
  | collect pick => exact collected_accounted hnodup h (collected_of_step hstep)
  | work future =>
      simp only [step] at hstep
      split at hstep
      · split at hstep
        · obtain ⟨next, -, rfl⟩ := Option.map_eq_some_iff.mp hstep
          exact h
        · cases hstep
      · cases hstep

/-- Whatever the order in which the workers go on and whenever the event is set, a
result that is recorded is that of a test that was not cancelled, and a batch in which
the event is never set has one for each configuration. -/
theorem results_independent (net : Net R) (workers : Int) {fileList : List String}
    (hdistinct : fileList.Nodup) (event : Bool) (acts : List Action) {s : Batch R}
    (hrun : run (step net workers (validFiles fileList)) { event := event } acts = some s) :
    (∀ entry ∈ s.results, entry.2 = bestRtt (probes net entry.1)) ∧
      (s.collector = .returned → s.event = false →
        (s.results.map Prod.fst).Perm (validFiles fileList)) := by
  have hnodup : (validFiles fileList).Nodup := hdistinct.filter _
  have hsound : Sound net ({ event := event } : Batch R) :=
    ⟨fun _ h => absurd h List.not_mem_nil, fun _ h => absurd h List.not_mem_nil, trivial,
      fun _ h => absurd h List.not_mem_nil⟩
  have hstart : Accounted (validFiles fileList) ({ event := event } : Batch R) := fun _ => ⟨rfl, rfl⟩
  have hs := (allStates_of_invariant (fun _ _ _ h ht => step_sound h ht) hsound acts).last hrun
  have ha := (allStates_of_invariant (fun _ _ _ h ht => step_accounted hnodup h ht) hstart acts).last hrun
  refine ⟨fun entry hmem => ?_, fun hreturned hevent => ?_⟩
  · rw [hs.results entry hmem, testSingleOvpn_eq]
  · have hfiles := ha hevent
    simp only [hreturned] at hfiles
    exact hfiles

def twoServers : Net Int where
  digits := ⟨Char.isDigit, fun c => if c.isDigit then some (c.toNat - 48) else none⟩
  lines file :=
    if file = "a.ovpn" then some ["remote a.example 443\n".toList]
    else if file = "b.ovpn" then some ["remote b.example 443\n".toList]
    else none
  ping _ _ := .ok (some 12)

/-- The first test is over, and its result recorded, before the event is set. The second
one then ends at the check of its only endpoint. -/
def cutShort : List Action :=
  List.replicate 6 (.collect 0) ++ List.replicate 4 (.work 0) ++ List.replicate 3 (.collect 0) ++
    [.work 1, .cancel, .work 1, .collect 1, .collect 1, .collect 1]

theorem results_independent_cutShort :
    ∃ s, run (step twoServers 12 (validFiles ["a.ovpn", "b.ovpn"])) { event := false } cutShort = some s ∧
      s.collector = .returned ∧ s.results = [("a.ovpn", some 12)] ∧
      bestRtt (probes twoServers "a.ovpn") = some 12 := by
  refine ⟨_, rfl, rfl, rfl, ?_⟩
  have hdistinct : ["a.ovpn", "b.ovpn"].Nodup := by decide
  exact ((results_independent twoServers 12 hdistinct false cutShort rfl).1 ("a.ovpn", some 12)
    List.mem_cons_self).symm

end EovpnPro.SpeedTest
