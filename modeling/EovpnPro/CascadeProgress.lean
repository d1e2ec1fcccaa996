import EovpnPro.CascadePaths
import EovpnPro.Runs

namespace EovpnPro.CascadeProgress

open AutoConnect Events Sources AppState WindowEvents CascadeController MainWindow CascadeLedger
open CascadeMoves CascadePaths Runs Relation

variable {w t : World} {P : Controller → Prop} {Q : Controller → Time → Prop}

def thisRun : List Act → List Act
  | [] | .begin :: _ => []
  | act :: older => act :: thisRun older

def connectPosition : Act → Option Nat
  | .connect position _ => position
  | _ => none

def isAttempt : Act → Bool
  | .attempt _ => true
  | _ => false

def isExhausted : Act → Bool
  | .ended .exhausted => true
  | _ => false

/-- The queue positions that `connect` was called for in the latest run, newest first. -/
def connects (trace : List Act) : List Nat := (thisRun trace).filterMap connectPosition

def attemptCount (trace : List Act) : Nat := (thisRun trace).countP isAttempt

/-- How often `_try_current_server` ran while active in the latest run: each time it
opens an attempt, except for the one time that it finds no candidate and ends the run. -/
def tries (trace : List Act) : Nat :=
  attemptCount trace + if (thisRun trace).any isExhausted then 1 else 0

/-- The candidates of a run are connected in queue order, each of them once, and the run
tries them a bounded number of times. -/
structure Progress (w : World) : Prop where
  ordered : w.ctl.queue ≠ [] → (connects w.trace).Pairwise (fun newer older => older < newer)
  listed : w.ctl.queue ≠ [] → ∀ position config, .connect (some position) config ∈ thisRun w.trace →
    w.ctl.queue[position]? = some config
  bounded : w.ctl.queue ≠ [] → tries w.trace ≤ 4 * w.ctl.queue.length + 1

def Running (w : World) : Prop := w.ctl.active = true ∧ w.ctl.queue ≠ []

/-- How far a run has come. While no attempt is open, the positions below the index have
had their connects and four attempts each; an open one adds its own, and what is left of
the retries is what it may still cost. -/
structure Counted (w : World) : Prop extends Steady w where
  ordered : w.ctl.queue ≠ [] → (connects w.trace).Pairwise (fun newer older => older < newer)
  listed : w.ctl.queue ≠ [] → ∀ position config, .connect (some position) config ∈ thisRun w.trace →
    w.ctl.queue[position]? = some config
  bounded : w.ctl.queue ≠ [] → attemptCount w.trace ≤ 4 * w.ctl.queue.length
  unended : Running w → (thisRun w.trace).any isExhausted = false
  passed : Running w → attemptOpen w.ctl = false →
    (∀ k ∈ connects w.trace, k < w.ctl.index) ∧ attemptCount w.trace ≤ 4 * w.ctl.index
  opening : w.ctl.queue ≠ [] → ∀ k, untried w.trace = some k → ∀ j ∈ connects w.trace, j < k
  position : Running w → ∀ k, untried w.trace = some k →
    if attemptOpen w.ctl then k = w.ctl.index else k < w.ctl.index
  current : attemptOpen w.ctl = true →
    (∀ k ∈ connects w.trace, k ≤ w.ctl.index) ∧ attemptCount w.trace ≤ 4 * w.ctl.index + 4
  connected : attemptOpen w.ctl = true → untried w.trace = none → w.ctl.phase = .connecting
  retried : attemptOpen w.ctl = true → untried w.trace ≠ none →
    attemptCount w.trace ≤ 4 * w.ctl.index + min w.ctl.disconnectRetries 3 + 1
  waiting : attemptOpen w.ctl = true → w.ctl.phase = .settling →
    attemptCount w.trace ≤ 4 * w.ctl.index + min w.ctl.disconnectRetries 3

theorem Counted.progress (h : Counted w) : Progress w := by
  refine ⟨h.ordered, h.listed, fun hq => ?_⟩
  have hbounded := h.bounded hq
  simp only [tries]
  split <;> omega

def silent : Act → Bool
  | .disconnect => true
  | act => aside act

theorem silent_of_aside {act : Act} (h : aside act = true) : silent act = true := by
  cases act with
  | disconnect => rfl
  | polled | connect | cancelOperation | up | scheduled | begin | attempt | advance | ended => exact h

theorem thisRun_silent {act : Act} (h : silent act = true) (trace : List Act) :
    thisRun (act :: trace) = act :: thisRun trace ∧ connectPosition act = none ∧ isAttempt act = false ∧
      isExhausted act = false ∧ untried (act :: trace) = untried trace := by
  cases act with
  | polled | cancelOperation | up | scheduled | disconnect => exact ⟨rfl, rfl, rfl, rfl, rfl⟩
  | connect position config =>
      cases position with
      | none => exact ⟨rfl, rfl, rfl, rfl, rfl⟩
      | some k => cases h
  | begin | attempt | advance | ended => cases h

theorem Counted.told (hw : Counted w) {act : Act} (h : silent act = true) : Counted (w.record act) := by
  obtain ⟨hrun, hposition, hattempt, hend, huntried⟩ := thisRun_silent h w.trace
  have hconnects : connects (act :: w.trace) = connects w.trace := by
    simp only [connects, hrun, List.filterMap_cons, hposition]
  have hcount : attemptCount (act :: w.trace) = attemptCount w.trace := by
    simp only [attemptCount, hrun, List.countP_cons, hattempt, Bool.false_eq_true, if_false, Nat.add_zero]
  refine {
    toSteady := hw.toSteady.told act
    ordered := ?ordered, listed := ?listed, bounded := ?bounded, unended := ?unended, passed := ?passed
    opening := ?opening, position := ?position, current := ?current, connected := ?connected
    retried := ?retried, waiting := ?waiting }
  all_goals simp only [World.record_ctl, World.record_trace, hconnects, hcount, huntried]
  case ordered => exact hw.ordered
  case listed =>
    intro hq position config hm
    rw [hrun] at hm
    rcases List.mem_cons.mp hm with hact | hm
    · rw [← hact] at hposition
      cases hposition
    · exact hw.listed hq position config hm
  case bounded => exact hw.bounded
  case unended =>
    intro hr
    simp only [hrun, List.any_cons, hend, Bool.false_or]
    exact hw.unended hr
  case passed => exact hw.passed
  case opening => exact hw.opening
  case position => exact hw.position
  case current => exact hw.current
  case connected => exact hw.connected
  case retried => exact hw.retried
  case waiting => exact hw.waiting

theorem Counted.stopped (hw : Counted w) (hs : Steady t) (ha : t.ctl.active = false)
    (hq : t.ctl.queue = w.ctl.queue)
    (ht : t.trace = w.trace ∨ ∃ phase, t.trace = .ended phase :: w.trace) : Counted t := by
  obtain ⟨hconnects, hcount, huntried⟩ : connects t.trace = connects w.trace ∧
      attemptCount t.trace = attemptCount w.trace ∧ untried t.trace = untried w.trace := by
    rcases ht with ht | ⟨phase, ht⟩ <;> rw [ht]
    · exact ⟨rfl, rfl, rfl⟩
    · exact ⟨rfl, rfl, rfl⟩
  have hover : ∀ {p : Prop}, Running t → p := fun hr => Bool.noConfusion (ha.symm.trans hr.1)
  have hclosed : ∀ {p : Prop}, attemptOpen t.ctl = true → p :=
    fun hopen => Bool.noConfusion ((hs.inactive ha).symm.trans hopen)
  refine {
    toSteady := hs
    ordered := ?ordered, listed := ?listed, bounded := ?bounded, opening := ?opening
    unended := hover, passed := hover, position := hover
    current := hclosed, connected := hclosed, retried := hclosed, waiting := hclosed }
  case ordered =>
    rw [hconnects, hq]
    exact hw.ordered
  case listed =>
    intro hqueue position config hm
    rw [hq] at hqueue ⊢
    apply hw.listed hqueue
    rcases ht with ht | ⟨phase, ht⟩
    · exact ht ▸ hm
    · rw [ht] at hm
      exact (List.mem_cons.mp hm).resolve_left Act.noConfusion
  case bounded =>
    rw [hcount, hq]
    exact hw.bounded
  case opening =>
    rw [hconnects, huntried, hq]
    exact hw.opening

/-- A candidate is given up: its attempt is closed, and the index passes it. -/
theorem Counted.leaves (hw : Counted w) (hs : Steady t) (ha : w.ctl.active = true)
    (ho : attemptOpen t.ctl = false)
    (hq : t.ctl.queue = w.ctl.queue) (hi : t.ctl.index = w.ctl.index + 1)
    (ht : t.trace = .advance w.ctl.index :: w.trace) : Counted t := by
  have hconnects : connects t.trace = connects w.trace := by
    rw [ht]
    rfl
  have hcount : attemptCount t.trace = attemptCount w.trace := by
    rw [ht]
    rfl
  have hrunning : Running t → Running w := fun hr => ⟨ha, hq ▸ hr.2⟩
  have hclosed : ∀ {p : Prop}, attemptOpen t.ctl = true → p :=
    fun hopen => Bool.noConfusion (ho.symm.trans hopen)
  refine {
    toSteady := hs
    ordered := ?ordered, listed := ?listed, bounded := ?bounded, unended := ?unended, passed := ?passed
    opening := ?opening, position := ?position
    current := hclosed, connected := hclosed, retried := hclosed, waiting := hclosed }
  case ordered =>
    rw [hconnects, hq]
    exact hw.ordered
  case listed =>
    intro hqueue position config hm
    rw [hq] at hqueue ⊢
    rw [ht] at hm
    exact hw.listed hqueue position config ((List.mem_cons.mp hm).resolve_left Act.noConfusion)
  case bounded =>
    rw [hcount, hq]
    exact hw.bounded
  case unended =>
    intro hr
    rw [ht]
    exact hw.unended (hrunning hr)
  case passed =>
    intro hr _
    rw [hconnects, hcount, hi]
    cases hopen : attemptOpen w.ctl with
    | true =>
        obtain ⟨hpassed, hcost⟩ := hw.current hopen
        exact ⟨fun k hk => Nat.lt_succ_of_le (hpassed k hk), hcost⟩
    | false =>
        obtain ⟨hpassed, hcost⟩ := hw.passed (hrunning hr) hopen
        exact ⟨fun k hk => Nat.lt_succ_of_lt (hpassed k hk), by omega⟩
  case opening =>
    intro hqueue k hk
    rw [ht] at hk
    rw [hq] at hqueue
    rw [hconnects]
    exact hw.opening hqueue k hk
  case position =>
    intro hr k hk
    rw [ht] at hk
    have hposition := hw.position (hrunning hr) k hk
    rw [ho, hi, if_neg Bool.false_ne_true]
    split at hposition <;> omega

theorem leaveCandidate_fields (w : World) (closing : Time) (reason : AttemptResult)
    (code message : Option String) :
    let t := leaveCandidate w closing reason code message
    t.ctl.queue = w.ctl.queue ∧ t.ctl.index = w.ctl.index + 1 ∧
      t.trace = .advance w.ctl.index :: w.trace := by
  obtain ⟨clock, failures, attempts, heq, -⟩ := leaveCandidate_eq w closing reason code message
  rw [heq]
  exact ⟨rfl, rfl, rfl⟩

theorem counted_calm (h : Calm Q w t) (hw : Counted w) : Counted t := by
  have hs := h.steady hw.toSteady
  cases h with
  | note act h => exact hw.told (silent_of_aside h)
  | down h => exact hw.told rfl
  | leave closing reason code message ha hp ht =>
      obtain ⟨hq, hi, htrace⟩ := leaveCandidate_fields w closing reason code message
      exact hw.leaves hs ha (hw.left closing reason code message) hq hi htrace
  | missing closing code message ha =>
      obtain ⟨hq, hi, htrace⟩ := leaveCandidate_fields (setDisconnectRetries w 0) closing .missing
        code message
      exact hw.leaves hs ha ((hw.retries 0).left closing .missing code message) hq hi htrace
  | await h =>
      have ho : attemptOpen (awaitDisconnect w).ctl = false := attemptOpen_nil h
      refine { hw with toSteady := hs, connected := fun hopen => ?_, waiting := fun hopen => ?_ }
      · exact Bool.noConfusion (ho.symm.trans hopen)
      · exact Bool.noConfusion (ho.symm.trans hopen)
  | reset ha =>
      have ho : attemptOpen w.ctl = false := hw.inactive ha
      refine { hw with toSteady := hs, retried := fun hopen => ?_, waiting := fun hopen => ?_ }
      · exact Bool.noConfusion (ho.symm.trans hopen)
      · exact Bool.noConfusion (ho.symm.trans hopen)
  | retried h =>
      refine { hw with toSteady := hs, retried := fun ho hu => ?_, waiting := fun ho hp => ?_ }
      · have hcost := hw.retried ho hu
        simp only [setDisconnectRetries]
        omega
      · have hcost := hw.waiting ho hp
        simp only [setDisconnectRetries]
        omega
  | succeed =>
      refine hw.stopped hs (congrArg AttemptLedger.Ledger.active (ledger_finishSucceeded w))
        (congrArg AttemptLedger.Ledger.queue (ledger_finishSucceeded w)) (.inr ⟨.succeeded, ?_⟩)
      exact finishSucceeded_trace w
  | exhaust =>
      refine hw.stopped hs (congrArg AttemptLedger.Ledger.active (ledger_finishExhausted w))
        (congrArg AttemptLedger.Ledger.queue (ledger_finishExhausted w)) (.inr ⟨.exhausted, ?_⟩)
      exact finishExhausted_trace w
  | cancelled closing =>
      rw [closeCancelled, completeActiveAttempt_eq] at hs ⊢
      exact hw.stopped hs rfl rfl (.inl rfl)
  | ended ha => exact hw.stopped hs ha rfl (.inr ⟨.cancelled, rfl⟩)
  | adopt | window | pass | reconnect | flags | forgetTimeout | disarm | arm | settle | freeze | extend | drop
  | rearm => exact { hw with toSteady := hs }

theorem Counted.unconnected (hw : Counted w) (hrunning : Running w)
    (hp : attemptOpen w.ctl = true → w.ctl.phase = .settling) :
    (∀ k ∈ connects w.trace, k < w.ctl.index) ∧
      attemptCount w.trace ≤ 4 * w.ctl.index + min w.ctl.disconnectRetries 3 := by
  cases hopen : attemptOpen w.ctl with
  | false =>
      obtain ⟨hpassed, hcost⟩ := hw.passed hrunning hopen
      exact ⟨hpassed, by omega⟩
  | true =>
      have hsettling := hp hopen
      refine ⟨?_, hw.waiting hopen hsettling⟩
      cases hu : untried w.trace with
      | none =>
          rw [hw.connected hopen hu] at hsettling
          cases hsettling
      | some k =>
          have hposition := hw.position hrunning k hu
          rw [hopen, if_pos rfl] at hposition
          exact hposition ▸ hw.opening hrunning.2 k hu

theorem counted_openAttempt (hw : Counted w) (ha : w.ctl.active = true) {filename : String}
    (hq : w.ctl.queue[w.ctl.index]? = some filename)
    (hp : attemptOpen w.ctl = true → w.ctl.phase = .settling) (dt : Time) :
    Counted (openAttempt w filename dt) := by
  have hqueue : w.ctl.queue ≠ [] := List.ne_nil_of_mem (List.mem_of_getElem? hq)
  have hrunning : Running w := ⟨ha, hqueue⟩
  have hlt : w.ctl.index < w.ctl.queue.length := (List.getElem?_eq_some_iff.mp hq).1
  have hcount : attemptCount (openAttempt w filename dt).trace = attemptCount w.trace + 1 :=
    List.countP_cons_of_pos (l := thisRun w.trace) rfl
  have ho : attemptOpen (openAttempt w filename dt).ctl = true :=
    congrArg AttemptLedger.Ledger.attempting (ledger_openAttempt w filename dt)
  obtain ⟨hbefore, hcost⟩ := hw.unconnected hrunning hp
  refine {
    toSteady := steady_openAttempt hw.toSteady ha hq dt
    ordered := hw.ordered, listed := ?listed, bounded := ?bounded, unended := fun _ => hw.unended hrunning
    passed := fun _ hclosed => Bool.noConfusion (hclosed.symm.trans ho), opening := ?opening
    position := ?position, current := ?current, connected := ?connected, retried := ?retried
    waiting := ?waiting }
  case listed =>
    intro _ position config hm
    exact hw.listed hqueue position config ((List.mem_cons.mp hm).resolve_left Act.noConfusion)
  case bounded =>
    intro _
    rw [hcount]
    change _ ≤ 4 * w.ctl.queue.length
    omega
  case opening =>
    intro _ k hk
    obtain rfl := Option.some.inj hk
    exact hbefore
  case position =>
    intro _ k hk
    rw [ho]
    exact (Option.some.inj hk).symm
  case current =>
    intro _
    refine ⟨fun k hk => Nat.le_of_lt (hbefore k hk), ?_⟩
    rw [hcount]
    change _ ≤ 4 * w.ctl.index + 4
    omega
  case connected =>
    intro _ hu
    cases hu
  case retried =>
    intro _ _
    rw [hcount]
    exact Nat.succ_le_succ hcost
  case waiting =>
    intro _ hsettling
    cases hsettling

theorem counted_connect (hw : Counted w) {position : Nat} {filename : String}
    (hu : untried w.trace = some position) (hq : w.ctl.queue[position]? = some filename)
    (ho : attemptOpen w.ctl = true → w.ctl.phase = .connecting) :
    Counted ((setDisconnectRetries w 0).record (.connect (some position) filename)) := by
  have hnot : untried w.trace ≠ none := hu ▸ Option.some_ne_none position
  have hconnects : connects ((setDisconnectRetries w 0).record (.connect (some position) filename)).trace =
      position :: connects w.trace := rfl
  refine {
    toSteady := (hw.retries 0).told _
    ordered := ?ordered, listed := ?listed, bounded := hw.bounded, unended := hw.unended, passed := ?passed
    opening := ?opening, position := ?position, current := ?current
    connected := fun hopen _ => ho hopen, retried := fun _ hnone => absurd rfl hnone, waiting := ?waiting }
  case ordered =>
    intro hqueue
    rw [hconnects]
    exact List.pairwise_cons.mpr ⟨hw.opening hqueue position hu, hw.ordered hqueue⟩
  case listed =>
    intro hqueue k config hm
    rcases List.mem_cons.mp hm with hconnect | hm
    · injection hconnect with hk hconfig
      rw [Option.some.inj hk, hconfig]
      exact hq
    · exact hw.listed hqueue k config hm
  case passed =>
    intro hr hclosed
    have hclosed : attemptOpen w.ctl = false := hclosed
    obtain ⟨hpassed, hcost⟩ := hw.passed hr hclosed
    have hposition := hw.position hr position hu
    rw [hclosed, if_neg Bool.false_ne_true] at hposition
    refine ⟨fun k hk => ?_, hcost⟩
    rw [hconnects] at hk
    rcases List.mem_cons.mp hk with rfl | hk
    · exact hposition
    · exact hpassed k hk
  case opening =>
    intro _ k hk
    cases hk
  case position =>
    intro _ k hk
    cases hk
  case current =>
    intro hopen
    have hopen : attemptOpen w.ctl = true := hopen
    obtain ⟨hpassed, -⟩ := hw.current hopen
    have hcost := hw.retried hopen hnot
    obtain ⟨ha, -, name, hname, -⟩ := hw.opened hopen
    have hqueue : w.ctl.queue ≠ [] := List.ne_nil_of_mem (List.mem_of_getElem? hname)
    have hposition := hw.position ⟨ha, hqueue⟩ position hu
    rw [hopen, if_pos rfl] at hposition
    refine ⟨fun k hk => ?_, ?_⟩
    · rw [hconnects] at hk
      rcases List.mem_cons.mp hk with rfl | hk
      · exact Nat.le_of_eq hposition
      · exact hpassed k hk
    · change attemptCount w.trace ≤ 4 * w.ctl.index + 4
      omega
  case waiting =>
    intro hopen hsettling
    exact CascadePhase.noConfusion ((ho hopen).symm.trans hsettling)

theorem counted_move (h : Move (fun c => c.phase = .settling) Q w t) (hw : Counted w) : Counted t := by
  have hs := h.steady hw.toSteady
  cases h with
  | calm h => exact counted_calm h hw
  | attempt u filename dt arming ha hq hp h =>
      exact tried_keeps (fun _ _ hu hc => counted_calm hc hu) h (counted_openAttempt hw ha hq hp dt) arming
  | retry hu hr =>
      have hcost : attemptOpen w.ctl = true →
          attemptCount w.trace ≤ 4 * w.ctl.index + min (w.ctl.disconnectRetries + 1) 3 := by
        intro ho
        have hretried := hw.retried ho hu
        omega
      refine { hw with
        toSteady := hs
        connected := fun _ hnone => absurd hnone hu
        retried := fun ho _ => Nat.le_succ_of_le (hcost ho)
        waiting := fun ho _ => hcost ho }
  | connect position filename hu hq ho => exact counted_connect hw hu hq ho

theorem counted_turn (h : Turn (fun c => c.phase = .settling) Q w t) (hw : Counted w) : Counted t := by
  have hs := h.steady hw.toSteady
  cases h with
  | move h => exact counted_move h hw
  | prepare ha =>
      have ho := hw.inactive ha
      have hclosed : ∀ {p : Prop}, attemptOpen w.ctl = true → p :=
        fun hopen => Bool.noConfusion (ho.symm.trans hopen)
      have hempty : ∀ {p : Prop}, ([] : List String) ≠ [] → p := fun hne => absurd rfl hne
      exact {
        toSteady := hs
        ordered := hempty, listed := hempty, bounded := hempty, unended := fun hr => hempty hr.2
        passed := fun hr => hempty hr.2, opening := hempty, position := fun hr => hempty hr.2
        current := hclosed, connected := hclosed, retried := hclosed, waiting := hclosed }
  | load queue hq hn h =>
      have hopen : ∀ {p : Prop}, attemptOpen (loadQueue w queue).ctl = true → p := fun ho => by cases ho
      have hnone : ∀ {p : Nat → Prop}, ∀ k ∈ connects (loadQueue w queue).trace, p k :=
        fun k hk => by cases hk
      have huntried : ∀ {p : Nat → Prop}, ∀ k, untried (loadQueue w queue).trace = some k → p k :=
        fun k hk => by cases hk
      exact {
        toSteady := hs
        ordered := fun _ => List.Pairwise.nil, listed := fun _ position config hm => by cases hm
        bounded := fun _ => Nat.zero_le _, unended := fun _ => rfl
        passed := fun _ _ => ⟨hnone, Nat.zero_le _⟩
        opening := fun _ => huntried, position := fun _ => huntried
        current := hopen, connected := hopen, retried := hopen, waiting := hopen }

theorem counted_unregister (hw : Counted w) (callback : Callback) : Counted (unregister w callback) := by
  have hs := steady_unregister hw.toSteady callback
  cases callback with
  | settle | timeout | tick | reconnect => exact { hw with toSteady := hs }

def Registered (skip : Option Nat) (w : World) : Prop :=
  ∀ s ∈ w.sched.sources, some s.id ≠ skip → ∀ gen, s.callback = .settle gen → w.ctl.settleId = some s.id

variable {skip : Option Nat}

theorem registered_of_subset (hw : Registered skip w) (hid : t.ctl.settleId = w.ctl.settleId)
    (hs : t.sched.sources ⊆ w.sched.sources) : Registered skip t :=
  fun s hm hskip gen hc => hid.trans (hw s (hs hm) hskip gen hc)

theorem Registered.disarmed (hw : Registered skip w)
    (ht : t.sched.sources ⊆ (disarmTimers w false).sched.sources) : Registered skip t := by
  intro s hm hskip gen hc
  have hs := ht hm
  have hid := hw s ((disarmTimers_subset w).2 hs) hskip gen hc
  simp only [disarmTimers, hid, removeSource, remove, Bool.false_eq_true, if_false] at hs
  exact absurd rfl (of_decide_eq_true (List.mem_filter.mp hs).2)

theorem Registered.added (hw : Registered skip w) (hid : t.ctl.settleId = w.ctl.settleId)
    {now interval : Nat} {callback : Callback} (hs : t.sched = add w.sched now interval callback)
    (hc : ∀ gen, callback ≠ .settle gen) : Registered skip t := by
  intro s hm hskip gen hsettle
  rw [hs] at hm
  rcases List.mem_append.mp hm with hm | hm
  · exact hid.trans (hw s hm hskip gen hsettle)
  · rw [List.mem_singleton.mp hm] at hsettle
    exact absurd hsettle (hc gen)

theorem registered_armTimeoutAndTicks (hw : Registered skip w) (dt : Time) :
    Registered skip (armTimeoutAndTicks w dt) := by
  let quiet := (disarmTimers w false).pass dt
  let interval := max 250 ((quiet.ctl.deadline - quiet.clock) / millisecond) * millisecond
  let armed := { quiet with sched := add quiet.sched quiet.clock interval (.timeout quiet.ctl.gen) }
  have hquiet : Registered skip quiet := hw.disarmed (List.Subset.refl _)
  have harmed : Registered skip armed := hquiet.added rfl rfl fun gen hc => Callback.noConfusion hc
  exact harmed.added rfl rfl fun gen hc => Callback.noConfusion hc

theorem registered_armSettle (hw : Registered skip w) : Registered skip (armSettle w) := by
  intro s hm hskip gen hc
  rcases List.mem_append.mp hm with hm | hm
  · have hid := hw s ((removeSource_subset w.sched w.ctl.settleId).2 hm) hskip gen hc
    rw [hid] at hm
    exact absurd rfl (of_decide_eq_true (List.mem_filter.mp hm).2)
  · rw [List.mem_singleton.mp hm]
    rfl

theorem registered_calm (h : Calm Q w t) (hw : Registered skip w) : Registered skip t := by
  cases h with
  | leave closing reason code message =>
      obtain ⟨clock, failures, attempts, heq, -⟩ := leaveCandidate_eq w closing reason code message
      rw [heq]
      exact hw.disarmed (List.Subset.refl _)
  | missing closing code message =>
      obtain ⟨clock, failures, attempts, heq, -⟩ :=
        leaveCandidate_eq (setDisconnectRetries w 0) closing .missing code message
      rw [heq]
      exact hw.disarmed (List.Subset.refl _)
  | arm dt => exact registered_armTimeoutAndTicks hw dt
  | settle h => exact registered_armSettle hw
  | reconnect lost => exact hw.added rfl rfl fun gen hc => Callback.noConfusion hc
  | disarm => exact hw.disarmed (List.Subset.refl _)
  | succeed =>
      rw [finishSucceeded, completeActiveAttempt_eq]
      exact hw.disarmed (List.Subset.refl _)
  | exhaust =>
      rw [finishExhausted, completeActiveAttempt_eq]
      exact hw.disarmed (List.Subset.refl _)
  | cancelled closing =>
      rw [closeCancelled, completeActiveAttempt_eq]
      exact hw.disarmed (List.Subset.refl _)
  | drop id => exact registered_of_subset hw rfl (List.filter_subset_self _)
  | rearm id now =>
      intro s hm hskip gen hc
      obtain ⟨r, hr, rfl⟩ := List.mem_map.mp hm
      by_cases hr' : r.id = id
      · rw [if_pos hr'] at hskip hc ⊢
        exact hw r hr hskip gen hc
      · rw [if_neg hr'] at hskip hc ⊢
        exact hw r hr hskip gen hc
  | window | pass | note | down | flags | forgetTimeout | freeze | extend | await | reset | retried | adopt
  | ended => exact hw

/-- A settle timer is waiting only while an open attempt is to be tried again, or none is open. -/
structure Scheduled (skip : Option Nat) (w : World) : Prop extends Counted w where
  registered : Registered skip w
  settling : w.ctl.settleId ≠ none → attemptOpen w.ctl = true → w.ctl.phase = .settling

theorem scheduled_calm (h : Calm Q w t) (hw : Scheduled skip w) : Scheduled skip t := by
  refine ⟨counted_calm h hw.toCounted, registered_calm h hw.registered, ?_⟩
  have hs := h.steady hw.toSteady
  cases h with
  | settle h => exact fun _ ho => h (hw.opened ho).1
  | leave closing reason code message =>
      obtain ⟨clock, failures, attempts, heq, -⟩ := leaveCandidate_eq w closing reason code message
      rw [heq]
      exact fun hid => absurd rfl hid
  | missing closing code message =>
      obtain ⟨clock, failures, attempts, heq, -⟩ :=
        leaveCandidate_eq (setDisconnectRetries w 0) closing .missing code message
      rw [heq]
      exact fun hid => absurd rfl hid
  | succeed => exact fun _ ho => Bool.noConfusion ((attemptOpen_finishSucceeded w).symm.trans ho)
  | exhaust => exact fun _ ho => Bool.noConfusion ((attemptOpen_finishExhausted w).symm.trans ho)
  | cancelled closing => exact fun _ ho => Bool.noConfusion ((attemptOpen_closeCancelled _ closing).symm.trans ho)
  | arm | disarm => exact fun hid => absurd rfl hid
  | await h => exact fun _ _ => rfl
  | window | pass | note | down | reconnect | flags | forgetTimeout | freeze | extend | reset | retried | adopt
  | ended | drop | rearm => exact hw.settling

theorem scheduled_turn (h : Turn (fun c => c.phase = .settling) Q w t) (hw : Scheduled skip w) :
    Scheduled skip t := by
  have hcounted := counted_turn h hw.toCounted
  cases h with
  | move h =>
      cases h with
      | calm h => exact scheduled_calm h hw
      | attempt u filename dt arming ha hq hp h =>
          have htry : Registered skip (openAttempt w filename dt) := hw.registered
          have hopen := calms_keep (fun _ _ hu hc => registered_calm hc hu) h htry
          exact ⟨hcounted, registered_armTimeoutAndTicks hopen arming, fun hid => absurd rfl hid⟩
      | retry => exact ⟨hcounted, hw.registered, fun _ _ => rfl⟩
      | connect => exact ⟨hcounted, hw.registered, hw.settling⟩
  | prepare ha =>
      exact ⟨hcounted, hw.registered, fun _ ho => Bool.noConfusion ((hw.inactive ha).symm.trans ho)⟩
  | load queue hq hn h =>
      refine ⟨hcounted, hw.registered, fun _ ho => ?_⟩
      cases ho

theorem scheduled_turns (h : ReflTransGen (Turn (fun c => c.phase = .settling) Q) w t)
    (hw : Scheduled skip w) : Scheduled skip t :=
  turns_keep (fun _ _ hu h => scheduled_turn h hu) h hw

theorem Scheduled.dispatched (hw : Scheduled none w) {source : Source Callback}
    (hs : source ∈ w.sched.sources) {gen : Nat} (hc : source.callback = .settle gen) :
    Scheduled (some source.id) (unregister w source.callback) := by
  have hid := hw.registered source hs (Option.some_ne_none _) gen hc
  have hcounted := counted_unregister hw.toCounted source.callback
  rw [hc] at hcounted ⊢
  refine ⟨hcounted, fun s hm hskip g hsettle => ?_, fun hnone => absurd rfl hnone⟩
  have hother := hw.registered s hm (Option.some_ne_none _) g hsettle
  exact absurd (hother.symm.trans hid) hskip

theorem scheduled_step {a : MainWindow.Action} (hw : Scheduled none w) (ht : step w a = some t) :
    Scheduled none t := by
  have hallowed : StepAllowed (fun c => c.phase = .settling) (fun _ _ => True) w a := by
    refine stepAllowed_of_settle (fun _ _ => trivial) fun id after e source gen heq hs hc ha hgen ho => ?_
    have hid := hw.registered source (of_due? hs).1 (Option.some_ne_none _) gen hc
    exact hw.settling (hid ▸ Option.some_ne_none _) ho
  have hturns := turns_of_step hw.named ht hallowed
  cases a with
  | fire id after e =>
      obtain ⟨source, hs, rfl⟩ := Option.map_eq_some_iff.mp ht
      simp only [CascadePaths.dispatched, hs, Option.elim_some] at hturns
      cases hc : source.callback with
      | timeout gen =>
          rw [hc] at hturns
          exact scheduled_turns hturns hw
      | tick gen =>
          rw [hc] at hturns
          exact scheduled_turns hturns hw
      | reconnect lost =>
          rw [hc] at hturns
          exact scheduled_turns hturns hw
      | settle gen =>
          have hfired := scheduled_turns hturns (hw.dispatched (of_due? hs).1 hc)
          refine ⟨hfired.toCounted, fun s hm _ => hfired.registered s hm fun hid => ?_, hfired.settling⟩
          simp only [fire, hc] at hm
          exact absurd (Option.some.inj hid) (of_decide_eq_true (List.mem_filter.mp hm).2)
  | backend | load | filter | select | autoReconnect | fastest | cancelCascade | connectClick
  | speedTestClick | sortClick | speedTestDone | event => exact scheduled_turns hturns hw

theorem initial_scheduled : Scheduled none initial where
  toSteady := initial_steady
  ordered hq := absurd rfl hq
  listed hq := absurd rfl hq
  bounded hq := absurd rfl hq
  unended hr := absurd rfl hr.2
  passed hr := absurd rfl hr.2
  opening hq := absurd rfl hq
  position hr := absurd rfl hr.2
  current ho := by cases ho
  connected ho := by cases ho
  retried ho := by cases ho
  waiting ho := by cases ho
  registered s hs := by cases hs
  settling hid := absurd rfl hid

/-- Every run connects its candidates in queue order, each of them at most once, and tries
them at most four times each and once more, whatever the backend answers. -/
theorem cascade_progresses (actions : List MainWindow.Action) : AllStates step Progress initial actions :=
  (allStates_of_invariant (fun _ _ _ h ht => scheduled_step h ht) initial_scheduled actions).mono
    fun _ h => h.progress

end EovpnPro.CascadeProgress
