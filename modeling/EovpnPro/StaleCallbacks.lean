import EovpnPro.NmStages

namespace EovpnPro.StaleCallbacks

open Events NmOperations NmWorker ProfileAudit Runs

inductive VpnState
  | activated
  | ended (reason : Option String)
  | other (status reason : Nat)
  deriving DecidableEq, Repr

/-- An invocation of the UI callback: the operation it belongs to, and the number of
operations that had been dispatched when the cancel in force returned, 0 without one. -/
structure Delivery where
  owner : Option Nat
  fence : Nat
  deriving DecidableEq, Repr

/-- The backend, with the operation that each queued callback belongs to. `timers` are
the one-second timers of the listener, `taken` says whether the runner has taken an
operation since the last cancel set the suppression. -/
structure Watched where
  nm : NetworkManager := {}
  owners : List (Option Nat) := []
  timers : List (Option Nat × Option String) := []
  fence : Nat := 0
  taken : Bool := false
  deliveries : List Delivery := []

variable {s t : Watched} {b c : NetworkManager}

def deliver (s : Watched) (owner : Option Nat) (result : Result) (error : Option String) : Watched :=
  { s with
    nm := guardedCallback s.nm result error
    deliveries := if s.nm.suppress then s.deliveries else ⟨owner, s.fence⟩ :: s.deliveries }

/-- The operation whose runner step queues a callback. A refused profile is not
dispatched at all. -/
def queuedBy (b : NetworkManager) : NmWorker.Action → Option Nat
  | .worker _ =>
      match b.worker with
      | some (.busy job _) => some job.id
      | _ => none
  | _ => none

def takes (b : NetworkManager) : Bool := decide (b.worker = some .looping) && !b.queue.isEmpty

def fenceAfter (s : Watched) : NmWorker.Action → Nat
  | .cancelClear => s.nm.nextId
  | .startWatch => 0
  | _ => s.fence

def takenAfter (s : Watched) : NmWorker.Action → Bool
  | .cancelSuppress => false
  | .worker _ => s.taken || takes s.nm
  | _ => s.taken

inductive Action
  | nm (a : NmWorker.Action)
  | signal (owner : Option Nat) (state : VpnState)
  | timer (k : Nat)
  | idleCallback

/-- `NMDbus.sub_callback`. The end of a connection is only told after one second. -/
def subCallback (s : Watched) (owner : Option Nat) : VpnState → Watched
  | .activated => deliver s owner (.bool true) none
  | .ended reason => { s with timers := s.timers ++ [(owner, reason)] }
  | .other status reason => deliver s owner (.list [.int status, .int reason]) none

/-- A step of the backend, a signal about a connection of an operation that has
started or of nobody's, the end of a timer, or a callback that was queued. -/
def step (s : Watched) : Action → Option Watched
  | .nm (.signal _ _) | .nm .idleCallback => none
  | .nm a => (NmWorker.step s.nm a).map fun nm =>
      { s with
        nm
        owners := s.owners ++ List.replicate (nm.idle.length - s.nm.idle.length) (queuedBy s.nm a)
        fence := fenceAfter s a
        taken := takenAfter s a }
  | .signal owner state =>
      if s.nm.caller = .idle ∧ s.nm.watch = true ∧ (∀ id ∈ owner, Event.started id ∈ s.nm.trace) then
        some (subCallback s owner state)
      else none
  | .timer k =>
      if s.nm.caller = .idle then
        (s.timers[k]?).map fun (owner, reason) =>
          deliver { s with timers := s.timers.eraseIdx k } owner (.bool false) reason
      else none
  | .idleCallback =>
      if s.nm.caller = .idle then
        match s.nm.idle with
        | [] => none
        | .guarded result error :: rest =>
            some (deliver { s with nm := { s.nm with idle := rest }, owners := s.owners.tail }
              (s.owners.headD none) result error)
        | .failure runner :: rest =>
            some { s with
              nm := log { s.nm with idle := rest }
                (.callback (.bool false) (some (messageOf s.nm.messages runner)))
              owners := s.owners.tail
              deliveries := ⟨s.owners.headD none, s.fence⟩ :: s.deliveries }
      else none

/-- No invocation belongs to an operation that had been dispatched before the cancel. -/
def NoStale (s : Watched) : Prop := ∀ d ∈ s.deliveries, ∀ id ∈ d.owner, d.fence ≤ id

def Stale (s : Watched) (owner : Option Nat) : Prop := ∃ id ∈ owner, id < s.fence

/-- The condition of one step: what comes late for a stale operation comes before the
runner takes another one, and no failure of it is left in the idle queue. -/
def Timely (s : Watched) : Action → Prop
  | .nm _ => True
  | .signal owner state => Stale s owner → s.taken = true → ∃ reason, state = .ended reason
  | .timer k => ∀ entry ∈ s.timers[k]?, Stale s entry.1 → s.taken = false
  | .idleCallback =>
      match s.nm.idle with
      | [] => True
      | .guarded _ _ :: _ => Stale s (s.owners.headD none) → s.taken = false
      | .failure _ :: _ => ¬ Stale s (s.owners.headD none)

def Gated (s : Watched) : Prop :=
  s.nm.caller = .suppressed ∨ s.fence ≠ 0 → s.nm.suppress = !s.taken

structure Kept (s : Watched) : Prop where
  gated : Gated s
  noStale : NoStale s

theorem gate_stepStage (b : NetworkManager) (job : Job) (e : Answers) (stage : Stage) :
    (stepStage b job e stage).suppress = b.suppress ∧ (stepStage b job e stage).caller = b.caller := by
  rcases stage_cases b job e stage with ⟨outcome, rfl⟩ | ⟨events, next, hm⟩
  · obtain ⟨hs, hc, -⟩ := finish_kept b job outcome
    exact ⟨hs, hc⟩
  · have hf := hm.kept
    simp only [frame, Prod.mk.injEq] at hf
    exact ⟨hf.2.2.1, hf.2.2.2.1⟩

theorem suppress_step {a : NmWorker.Action} (hc : NmWorker.step b a = some c) :
    c.suppress = (match a with
      | .cancelSuppress => true
      | .startWatch => false
      | .worker _ => b.suppress && !takes b
      | _ => b.suppress) ∧
    c.caller = (match a with
      | .cancelFlag => .flagged
      | .cancelSuppress => .suppressed
      | .cancelClear => .idle
      | _ => b.caller) := by
  cases step_cases hc with
  | refused | connecting | disconnecting | flagged | suppressed | cleared | watching | unwatching | heard
    | unheard | answered | unanswered | notified => exact ⟨rfl, rfl⟩
  | retired e hw hq => exact ⟨by simp [takes, hq], rfl⟩
  | taken e job rest hw hq => exact ⟨by simp [takes, hw, hq, log, toStage], rfl⟩
  | worked e job stage hw =>
      obtain ⟨hsuppress, hcaller⟩ := gate_stepStage b job e stage
      exact ⟨by rw [hsuppress]; simp [takes, hw], hcaller⟩

theorem stale_iff {owner : Option Nat} : Stale s owner ↔ ¬ ∀ id ∈ owner, s.fence ≤ id := by
  rw [Stale]
  push Not
  rfl

theorem fence_ne_of_stale {owner : Option Nat} (h : Stale s owner) : s.fence ≠ 0 := by
  obtain ⟨id, -, hlt⟩ := h
  omega

theorem noStale_cons_iff (owner : Option Nat) (h : NoStale s)
    (ht : t.deliveries = ⟨owner, s.fence⟩ :: s.deliveries) : NoStale t ↔ ¬ Stale s owner := by
  rw [stale_iff, not_not, NoStale, ht]
  constructor
  · intro hall
    exact hall _ List.mem_cons_self
  · intro howner d hd
    rcases List.mem_cons.mp hd with rfl | hd
    · exact howner
    · exact h d hd

theorem guardedCallback_gate (b : NetworkManager) (result : Result) (error : Option String) :
    (guardedCallback b result error).suppress = b.suppress ∧
      (guardedCallback b result error).caller = b.caller := by
  simp only [guardedCallback]
  split <;> exact ⟨rfl, rfl⟩

theorem noStale_deliver_iff (hg : Gated s) (h : NoStale s) (owner : Option Nat) (result : Result)
    (error : Option String) :
    NoStale (deliver s owner result error) ↔ (Stale s owner → s.taken = false) := by
  by_cases hstale : Stale s owner
  · have hgate := hg (.inr (fence_ne_of_stale hstale))
    cases ht : s.taken with
    | false =>
        rw [ht] at hgate
        refine iff_of_true ?_ fun _ => rfl
        simp only [NoStale, deliver, hgate, Bool.not_false, if_true]
        exact h
    | true =>
        rw [ht] at hgate
        refine iff_of_false ?_ fun hall => absurd (hall hstale) (by decide)
        rw [noStale_cons_iff owner h]
        · exact fun hn => hn hstale
        · simp only [deliver, hgate, Bool.not_true, Bool.false_eq_true, if_false]
  · refine iff_of_true ?_ fun hs => absurd hs hstale
    cases hs : s.nm.suppress with
    | true =>
        simp only [NoStale, deliver, hs, if_true]
        exact h
    | false =>
        rw [noStale_cons_iff owner h]
        · exact hstale
        · simp only [deliver, hs, Bool.false_eq_true, if_false]

theorem step_nm {a : NmWorker.Action} (ht : step s (.nm a) = some t) :
    ∃ nm, NmWorker.step s.nm a = some nm ∧ t.nm = nm ∧ t.deliveries = s.deliveries ∧
      t.fence = fenceAfter s a ∧ t.taken = takenAfter s a := by
  cases a with
  | signal | idleCallback => cases ht
  | connect | disconnect | cancelFlag | cancelSuppress | cancelClear | startWatch | stopWatch | worker =>
      obtain ⟨nm, hs, rfl⟩ := Option.map_eq_some_iff.mp ht
      exact ⟨nm, hs, rfl, rfl, rfl, rfl⟩

theorem gated_nm {a : NmWorker.Action} (h : Gated s) (ht : step s (.nm a) = some t) : Gated t := by
  obtain ⟨nm, hs, hnm, -, hf, htaken⟩ := step_nm ht
  obtain ⟨hsuppress, hcaller⟩ := suppress_step hs
  rw [Gated, hnm, hsuppress, hcaller, hf, htaken]
  cases a with
  | cancelSuppress => exact fun _ => rfl
  | cancelFlag =>
      rintro (hw | hfence)
      · cases hw
      · exact h (.inr hfence)
  | cancelClear =>
      cases step_cases hs with
      | cleared hcall => exact fun _ => h (.inl hcall)
  | startWatch =>
      cases step_cases hs with
      | watching hidle =>
          rintro (hw | hfence)
          · rw [hidle] at hw
            cases hw
          · exact absurd rfl hfence
  | worker e =>
      intro hgate
      simp only [takenAfter, h hgate, Bool.not_or]
  | connect | disconnect | stopWatch => exact h
  | signal | idleCallback => cases ht

theorem gated_deliver (h : Gated s) (owner : Option Nat) (result : Result) (error : Option String) :
    Gated (deliver s owner result error) := by
  obtain ⟨hs, hc⟩ := guardedCallback_gate s.nm result error
  simp only [Gated, deliver, hs, hc]
  exact h

theorem gated_step {a : Action} (h : Gated s) (ht : step s a = some t) : Gated t := by
  cases a with
  | nm a => exact gated_nm h ht
  | signal owner state =>
      simp only [step] at ht
      split_ifs at ht
      obtain rfl := Option.some.inj ht
      cases state with
      | activated | other => exact gated_deliver h _ _ _
      | ended => exact h
  | timer k =>
      simp only [step] at ht
      split_ifs at ht
      obtain ⟨⟨owner, reason⟩, -, rfl⟩ := Option.map_eq_some_iff.mp ht
      exact gated_deliver (s := { s with timers := s.timers.eraseIdx k }) h _ _ _
  | idleCallback =>
      simp only [step] at ht
      split_ifs at ht
      split at ht
      · cases ht
      · rename_i result error rest hidle
        obtain rfl := Option.some.inj ht
        let popped := { s with nm := { s.nm with idle := rest }, owners := s.owners.tail }
        exact gated_deliver (s := popped) h _ _ _
      · obtain rfl := Option.some.inj ht
        exact h

theorem noStale_step_iff {a : Action} (hg : Gated s) (h : NoStale s) (ht : step s a = some t) :
    NoStale t ↔ Timely s a := by
  cases a with
  | nm a =>
      obtain ⟨nm, -, -, hd, -, -⟩ := step_nm ht
      refine iff_of_true ?_ trivial
      rw [NoStale, hd]
      exact h
  | signal owner state =>
      simp only [step] at ht
      split_ifs at ht
      obtain rfl := Option.some.inj ht
      cases state with
      | activated =>
          simp only [subCallback, noStale_deliver_iff hg h, Timely, reduceCtorEq, exists_false, imp_false,
            Bool.not_eq_true]
      | other status reason =>
          simp only [subCallback, noStale_deliver_iff hg h, Timely, reduceCtorEq, exists_false, imp_false,
            Bool.not_eq_true]
      | ended reason => exact iff_of_true h fun _ _ => ⟨reason, rfl⟩
  | timer k =>
      simp only [step] at ht
      split_ifs at ht
      obtain ⟨⟨owner, reason⟩, hk, rfl⟩ := Option.map_eq_some_iff.mp ht
      rw [noStale_deliver_iff (s := { s with timers := s.timers.eraseIdx k }) hg h, Timely, hk]
      simp only [Option.mem_def, Option.some.injEq, forall_eq']
      rfl
  | idleCallback =>
      simp only [step] at ht
      split_ifs at ht
      simp only [Timely]
      split at ht
      · cases ht
      · rename_i result error rest _
        obtain rfl := Option.some.inj ht
        let popped := { s with nm := { s.nm with idle := rest }, owners := s.owners.tail }
        exact noStale_deliver_iff (s := popped) hg h _ _ _
      · obtain rfl := Option.some.inj ht
        exact noStale_cons_iff _ h rfl

def Aligned (s : Watched) : Prop := s.owners.length = s.nm.idle.length

theorem idle_stepStage (b : NetworkManager) (job : Job) (e : Answers) (stage : Stage) :
    b.idle <+: (stepStage b job e stage).idle := by
  rcases stage_cases b job e stage with ⟨outcome, rfl⟩ | ⟨events, next, hm⟩
  · obtain ⟨more, hidle⟩ := NmStages.idle_finish b job outcome
    exact ⟨more, hidle.symm⟩
  · have hf := hm.kept
    simp only [frame, Prod.mk.injEq] at hf
    rw [hf.2.2.2.2.1]

theorem idle_nm {a : NmWorker.Action} (ht : step s (.nm a) = some t) : s.nm.idle <+: t.nm.idle := by
  obtain ⟨nm, hs, hnm, -⟩ := step_nm ht
  rw [hnm]
  cases step_cases hs with
  | heard | unheard | answered | unanswered | notified => cases ht
  | refused => exact List.prefix_append _ _
  | connecting | disconnecting | flagged | suppressed | cleared | watching | unwatching | retired
    | taken => exact List.prefix_rfl
  | worked e job stage => exact idle_stepStage s.nm job e stage

theorem idle_guardedCallback (b : NetworkManager) (result : Result) (error : Option String) :
    (guardedCallback b result error).idle = b.idle := by
  simp only [guardedCallback]
  split <;> rfl

theorem aligned_step {a : Action} (h : Aligned s) (ht : step s a = some t) : Aligned t := by
  cases a with
  | nm a =>
      have hle := (idle_nm ht).length_le
      have howners : t.owners = s.owners ++
          List.replicate (t.nm.idle.length - s.nm.idle.length) (queuedBy s.nm a) := by
        cases a with
        | signal | idleCallback => cases ht
        | connect | disconnect | cancelFlag | cancelSuppress | cancelClear | startWatch | stopWatch | worker =>
            obtain ⟨nm, hs, rfl⟩ := Option.map_eq_some_iff.mp ht
            rfl
      rw [Aligned, howners, List.length_append, List.length_replicate, h]
      omega
  | signal owner state =>
      simp only [step] at ht
      split_ifs at ht
      obtain rfl := Option.some.inj ht
      cases state with
      | activated | other => exact h.trans (congrArg List.length (idle_guardedCallback s.nm _ _)).symm
      | ended => exact h
  | timer k =>
      simp only [step] at ht
      split_ifs at ht
      obtain ⟨⟨owner, reason⟩, -, rfl⟩ := Option.map_eq_some_iff.mp ht
      exact h.trans (congrArg List.length (idle_guardedCallback s.nm _ _)).symm
  | idleCallback =>
      simp only [step] at ht
      split_ifs at ht
      split at ht
      · cases ht
      · rename_i result error rest hidle
        obtain rfl := Option.some.inj ht
        rw [Aligned, deliver, idle_guardedCallback, List.length_tail, h, hidle]
        rfl
      · rename_i message rest hidle
        obtain rfl := Option.some.inj ht
        rw [Aligned, List.length_tail, h, hidle]
        rfl

theorem aligned_run (actions : List Action) : AllStates step Aligned {} actions := by
  have hstart : Aligned {} := rfl
  exact allStates_of_invariant (fun _ _ _ h ht => aligned_step h ht) hstart actions

/-- In every run, the window hears of no operation from before a cancel exactly when
what comes late of one comes before the runner takes the next. -/
theorem no_stale_iff_timely (actions : List Action) :
    AllStates step NoStale {} actions ↔ AllSteps step Timely {} actions :=
  allStates_iff_allSteps (I := Kept) (fun _ h => h.noStale)
    (fun _ _ _ h ht hg => ⟨gated_step h.gated ht, (noStale_step_iff h.gated h.noStale ht).mpr hg⟩)
    (fun _ _ _ h ht => (noStale_step_iff h.gated h.noStale ht).mp) actions
    ⟨fun hgate => by simp at hgate, fun _ hd => absurd hd List.not_mem_nil⟩

def profile : List Char := "client\nremote vpn.example 1194\n".toList

/-- A connect is activating when the cascade cancels it and asks for a disconnect. Its
`ACTIVATED` signal comes after the runner has taken the disconnect. -/
def lateSignal : List Action :=
  [.nm .startWatch, .nm (.connect (some profile)), .nm (.worker {}), .nm (.worker {}), .nm (.worker {}),
    .nm (.worker {}), .nm (.worker { uuid := some "uuid" }), .nm (.worker {}), .nm .cancelFlag,
    .nm .cancelSuppress, .nm .cancelClear, .nm .disconnect, .nm (.worker {}), .nm (.worker {}),
    .nm (.worker {}), .nm (.worker {}), .nm (.worker {}), .nm (.worker {}), .nm (.worker {}),
    .signal (some 0) .activated]

theorem lateSignal_delivered :
    (run step {} lateSignal).map (fun s => (s.deliveries, s.nm.trace.head?)) =
      some ([⟨some 0, 1⟩], some (.callback (.bool true) none)) := by
  decide

theorem stale_delivered : ¬ ∀ actions, AllStates step NoStale {} actions := by
  intro h
  obtain ⟨s, hs, heq⟩ := Option.map_eq_some_iff.mp lateSignal_delivered
  have hd : (⟨some 0, 1⟩ : Delivery) ∈ s.deliveries := by
    rw [(Prod.mk.inj heq).1]
    exact List.mem_singleton_self _
  exact absurd ((h lateSignal).last hs _ hd 0 rfl) (by decide)

end EovpnPro.StaleCallbacks
