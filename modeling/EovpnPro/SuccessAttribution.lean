import EovpnPro.CascadePaths
import EovpnPro.Runs

namespace EovpnPro.SuccessAttribution

open AutoConnect Events Sources AppState WindowEvents CascadeController MainWindow AttemptLedger CascadeLedger
open CascadeMoves CascadePaths Runs Relation

variable {w t : World} {P : Controller → Prop} {Q : Controller → Time → Prop}

def successBefore : List Act → Option (List Act)
  | [] | .begin :: _ => none
  | .ended phase :: older => if phase = .succeeded then some older else none
  | _ :: older => successBefore older

def undisturbed : List Act → Bool
  | .connect (some _) _ :: _ => true
  | .disconnect :: _ | .attempt _ :: _ | .begin :: _ | [] => false
  | _ :: older => undisturbed older

def calls (trace : List Act) : Nat :=
  trace.countP fun
    | .connect _ _ => true
    | _ => false

def ups (trace : List Act) : Nat :=
  trace.countP fun
    | .up => true
    | _ => false

/-- The candidate of this connect call, counted from the first one, has been given up. -/
def givenUp (call : Nat) : List Act → Bool
  | [] => false
  | .advance _ :: older | .ended .exhausted :: older | .ended .cancelled :: older =>
      decide (call < calls older) || givenUp call older
  | _ :: older => givenUp call older

/-- The CONNECTED signal that comes next is due to a connect call whose candidate has
been given up. `origin` tells which call each of these signals is due to. -/
def late (origin : Nat → Option Nat) (trace : List Act) : Bool :=
  (origin (ups trace)).any fun call => givenUp call trace

def Credited (c : Controller) : Prop :=
  ∃ rest a, c.attempts = rest ++ [a] ∧ a.result = .success ∧ (∀ b ∈ rest, b.result ≠ .success) ∧
    c.current = some a.configId

/-- A run that has begun its queue and succeeds is credited to the attempt that is
connecting, and a signal of a candidate that was given up does not end it. -/
def Attributed (origin : Nat → Option Nat) (w : World) : Prop :=
  ∀ older, successBefore w.trace = some older → w.ctl.queue ≠ [] →
    Credited w.ctl ∧ undisturbed older = true ∧ late origin older = false

def attempting (trace : List Act) : Bool := (openPosition (trace.filterMap milestone)).isSome

/-- The CONNECTED signal that ended the run came while an attempt was open whose connect
had been called, and it was not due to a candidate that had been given up. -/
def InTime (origin : Nat → Option Nat) (w : World) : Prop :=
  ∀ older, successBefore w.trace = some older → w.ctl.queue ≠ [] →
    attempting older = true ∧ untried older = none ∧ late origin older = false

structure Judged (w : World) : Prop extends Steady w where
  running : w.ctl.active = true → w.ctl.queue ≠ [] → successBefore w.trace = none ∧
    (∀ a ∈ w.ctl.attempts, a.result ≠ .success) ∧ attempting w.trace = attemptOpen w.ctl
  credited : attemptOpen w.ctl = true → ∃ rest a, w.ctl.attempts = rest ++ [a] ∧
    w.ctl.current = some a.configId
  connected : attemptOpen w.ctl = true → untried w.trace = none →
    w.ctl.phase = .connecting ∧ undisturbed w.trace = true
  judged : ∀ older, successBefore w.trace = some older → w.ctl.queue ≠ [] →
    (Credited w.ctl ↔ attempting older = true) ∧
    (attempting older = true → untried older = none → undisturbed older = true)

theorem undisturbed_untried {trace : List Act} (h : undisturbed trace = true) : untried trace = none := by
  induction trace with
  | nil => cases h
  | cons act older ih =>
      cases act with
      | connect position config =>
          cases position with
          | none => exact ih h
          | some k => rfl
      | polled | cancelOperation | up | scheduled | advance | ended => exact ih h
      | begin | attempt | disconnect => cases h

theorem Judged.attributed_iff (h : Judged w) (origin : Nat → Option Nat) :
    Attributed origin w ↔ InTime origin w := by
  constructor
  · intro hA older hs hq
    obtain ⟨hcredited, hundisturbed, hlate⟩ := hA older hs hq
    exact ⟨(h.judged older hs hq).1.mp hcredited, undisturbed_untried hundisturbed, hlate⟩
  · intro hT older hs hq
    obtain ⟨hattempting, huntried, hlate⟩ := hT older hs hq
    obtain ⟨hcredited, hundisturbed⟩ := h.judged older hs hq
    exact ⟨hcredited.mpr hattempting, hundisturbed hattempting huntried, hlate⟩

theorem Judged.of_inactive (hs : Steady t) (ha : t.ctl.active = false)
    (hj : ∀ older, successBefore t.trace = some older → t.ctl.queue ≠ [] →
      (Credited t.ctl ↔ attempting older = true) ∧
      (attempting older = true → untried older = none → undisturbed older = true)) : Judged t where
  toSteady := hs
  running hactive := Bool.noConfusion (ha.symm.trans hactive)
  credited ho := Bool.noConfusion ((hs.inactive ha).symm.trans ho)
  connected ho := Bool.noConfusion ((hs.inactive ha).symm.trans ho)
  judged := hj

theorem Judged.verdict_open (h : Judged w) (ha : w.ctl.active = true) (hq : w.ctl.queue ≠ [])
    {older : List Act} (hs : successBefore w.trace = some older) : False := by
  rw [(h.running ha hq).1] at hs
  cases hs

theorem modify_last {α : Type} (rest : List α) (a : α) (f : α → α) :
    (rest ++ [a]).modify rest.length f = rest ++ [f a] := by
  induction rest with
  | nil => rfl
  | cons b rest ih => exact congrArg (b :: ·) ih

theorem Judged.credited_finishSucceeded (h : Judged w) (ha : w.ctl.active = true) (hq : w.ctl.queue ≠ []) :
    Credited (finishSucceeded w).ctl ↔ attemptOpen w.ctl = true := by
  obtain ⟨-, hnone, -⟩ := h.running ha hq
  rw [finishSucceeded, completeActiveAttempt_eq]
  cases ho : attemptOpen w.ctl with
  | false =>
      refine ⟨fun hc => ?_, Bool.noConfusion⟩
      obtain ⟨rest, a, hattempts, hsuccess, -, -⟩ := hc
      have hsame : closeActive (endRun w .succeeded).ctl (endRun w .succeeded).clock .success none none =
          w.ctl.attempts := closeActive_closed (c := (endRun w .succeeded).ctl) ho _ _ _ _
      have hlist : w.ctl.attempts = rest ++ [a] := hsame.symm.trans hattempts
      exact absurd hsuccess (hnone a (hlist ▸ List.mem_append_right rest List.mem_cons_self))
  | true =>
      refine ⟨fun _ => rfl, fun _ => ?_⟩
      obtain ⟨rest, a, hattempts, hcurrent⟩ := h.credited ho
      obtain ⟨k, b, hk, hb, hopen⟩ := open_record ho
      have hlength := h.newest k hk
      rw [hattempts, List.length_append, List.length_singleton] at hlength
      obtain rfl : k = rest.length := by omega
      obtain rfl : a = b := by
        rw [hattempts, List.getElem?_concat_length] at hb
        exact Option.some.inj hb
      let credited := closeAttempt w.clock w.ctl.deadline .success none none a
      refine ⟨rest, credited, ?_, ?_, fun c hc => hnone c ?_, ?_⟩
      · simp only [closeActive, endRun, setControlsLocked, disarmTimers, hk, hattempts, World.record_ctl]
        exact modify_last rest a _
      · simp only [credited, closeAttempt, hopen, Option.isSome_none, Bool.false_eq_true, if_false]
      · rw [hattempts]
        exact List.mem_append_left [a] hc
      · simp only [credited, closeAttempt, hopen, Option.isSome_none, Bool.false_eq_true, if_false]
        exact hcurrent

theorem successBefore_note {act : Act} (h : aside act = true) (older : List Act) :
    successBefore (act :: older) = successBefore older ∧ undisturbed (act :: older) = undisturbed older ∧
      attempting (act :: older) = attempting older := by
  cases act with
  | polled | cancelOperation | up | scheduled => exact ⟨rfl, rfl, rfl⟩
  | connect position config =>
      cases position with
      | none => exact ⟨rfl, rfl, rfl⟩
      | some k => cases h
  | begin | attempt | advance | disconnect | ended => cases h

theorem Judged.given_up (h : Judged w) (hs : Steady t) (ho : attemptOpen t.ctl = false)
    (ha : w.ctl.active = true)
    (hq : t.ctl.queue = w.ctl.queue) {position : Nat} (ht : t.trace = .advance position :: w.trace)
    (hr : ∀ a ∈ t.ctl.attempts, a ∈ w.ctl.attempts ∨ a.result ≠ .success) : Judged t where
  toSteady := hs
  running _ hqueue := by
    obtain ⟨hnone, hfailed, -⟩ := h.running ha (hq ▸ hqueue)
    refine ⟨?_, fun a hm => ?_, ?_⟩
    · rw [ht]
      exact hnone
    · exact (hr a hm).elim (hfailed a) id
    · rw [ht, ho]
      rfl
  credited hopen := Bool.noConfusion (ho.symm.trans hopen)
  connected hopen := Bool.noConfusion (ho.symm.trans hopen)
  judged older hsuccess hqueue := by
    rw [ht] at hsuccess
    exact (h.verdict_open ha (hq ▸ hqueue) hsuccess).elim

theorem mem_closeActive {c : Controller} {now : Time} {result : AttemptResult}
    {code message : Option String}
    {b : ConnectionAttempt} (h : b ∈ closeActive c now result code message) :
    b ∈ c.attempts ∨ b.result = result := by
  obtain ⟨k, hk⟩ := List.mem_iff_getElem?.mp h
  obtain ⟨a, ha, hsame | ⟨-, hnone, rfl⟩⟩ := of_closeActive hk
  · exact .inl (hsame.1 ▸ List.mem_of_getElem? ha)
  · rw [closeAttempt, hnone]
    exact .inr rfl

theorem Judged.left (h : Judged w) (closing : Time) {reason : AttemptResult} (code message : Option String)
    (ha : w.ctl.active = true) (hp : failing reason = true)
    (hs : Steady (leaveCandidate w closing reason code message)) :
    Judged (leaveCandidate w closing reason code message) := by
  have ho := h.toSteady.left closing reason code message
  obtain ⟨clock, failures, attempts, heq, hrecords⟩ := leaveCandidate_eq w closing reason code message
  rw [heq] at hs ho ⊢
  refine h.given_up hs ho ha rfl rfl fun a hm => ?_
  rcases hrecords with rfl | ⟨c, m, rfl⟩
  · exact .inl hm
  · refine (mem_closeActive hm).imp_right fun hr hsuccess => ?_
    rw [hr.symm.trans hsuccess] at hp
    cases hp

theorem Judged.noted (hw : Judged w) {act : Act} (h : aside act = true) (hs : Steady (w.record act)) :
    Judged (w.record act) := by
  obtain ⟨hsuccess, hundisturbed, hattempting⟩ := successBefore_note h w.trace
  refine ⟨hs, fun ha hq => ?_, hw.credited, fun ho hu => ?_, fun older hold hq => ?_⟩
  · obtain ⟨hnone, hfailed, hopen⟩ := hw.running ha hq
    exact ⟨hsuccess.trans hnone, hfailed, hattempting.trans hopen⟩
  · obtain ⟨hphase, hconnected⟩ := hw.connected ho ((untried_note h w.trace).symm.trans hu)
    exact ⟨hphase, hundisturbed.trans hconnected⟩
  · exact hw.judged older (hsuccess.symm.trans hold) hq

theorem Judged.succeeded (hw : Judged w) (ha : w.ctl.active = true) (hs : Steady (finishSucceeded w)) :
    Judged (finishSucceeded w) := by
  refine .of_inactive hs (congrArg Ledger.active (ledger_finishSucceeded w)) fun older hold hq => ?_
  have hqueue : w.ctl.queue ≠ [] := fun hnil =>
    hq ((congrArg Ledger.queue (ledger_finishSucceeded w)).trans hnil)
  rw [finishSucceeded_trace] at hold
  obtain rfl := Option.some.inj hold
  obtain ⟨-, -, hopen⟩ := hw.running ha hqueue
  refine ⟨?_, fun hattempting huntried => ?_⟩
  · rw [hopen]
    exact hw.credited_finishSucceeded ha hqueue
  · exact (hw.connected (hopen.symm.trans hattempting) huntried).2

theorem Judged.closed (hw : Judged w) (closing : Time)
    (hs : Steady (closeCancelled { w with ctl := { w.ctl with gen := w.ctl.gen + 1 } } closing)) :
    Judged (closeCancelled { w with ctl := { w.ctl with gen := w.ctl.gen + 1 } } closing) := by
  rw [closeCancelled, completeActiveAttempt_eq] at hs ⊢
  refine .of_inactive hs rfl fun older hold hq => ?_
  cases ha : w.ctl.active with
  | true => exact (hw.verdict_open ha hq hold).elim
  | false =>
      have hsame := closeActive_closed (hw.inactive ha) (w.clock + closing) .cancelled
        (some "cancelled")
        (some "Auto-connect cancelled by the user.")
      have hj := hw.judged older hold hq
      simp only [Credited] at hj ⊢
      rw [← hsame] at hj
      exact hj

theorem judged_calm (h : Calm Q w t) (hw : Judged w) : Judged t := by
  have hs := h.steady hw.toSteady
  cases h with
  | note act h => exact hw.noted h hs
  | down h =>
      refine ⟨hs, hw.running, hw.credited, fun ho hu => ?_, hw.judged⟩
      have hsettling := h (hw.opened ho).1
      rw [(hw.connected ho hu).1] at hsettling
      cases hsettling
  | leave closing reason code message ha hp ht => exact hw.left closing code message ha hp hs
  | missing closing code message ha =>
      have hreset : Judged (setDisconnectRetries w 0) :=
        ⟨hw.toSteady.retries 0, hw.running, hw.credited, hw.connected, hw.judged⟩
      exact hreset.left closing code message ha rfl hs
  | await h =>
      have ho : attemptOpen (awaitDisconnect w).ctl = false := attemptOpen_nil h
      exact ⟨hs, hw.running, fun hopen => Bool.noConfusion (ho.symm.trans hopen),
        fun hopen => Bool.noConfusion (ho.symm.trans hopen), hw.judged⟩
  | adopt current h =>
      have hq := hw.preparing h
      exact ⟨hs, hw.running, fun ho => absurd h (hw.opened ho).2.1, fun ho => absurd h (hw.opened ho).2.1,
        fun older hold hqueue => absurd hq hqueue⟩
  | succeed ha => exact hw.succeeded ha hs
  | exhaust =>
      refine .of_inactive hs (congrArg Ledger.active (ledger_finishExhausted w)) fun older hold hq => ?_
      rw [finishExhausted_trace] at hold
      cases hold
  | cancelled closing => exact hw.closed closing hs
  | ended ha =>
      refine .of_inactive hs ha fun older hold hq => ?_
      cases hold
  | window | pass | reconnect | flags | forgetTimeout | disarm | arm | settle | freeze | extend | reset
  | retried | drop | rearm => exact ⟨hs, hw.running, hw.credited, hw.connected, hw.judged⟩

theorem judged_openAttempt (hw : Judged w) (ha : w.ctl.active = true) {filename : String}
    (hq : w.ctl.queue[w.ctl.index]? = some filename) (dt : Time) : Judged (openAttempt w filename dt) := by
  have hqueue : w.ctl.queue ≠ [] := List.ne_nil_of_mem (List.mem_of_getElem? hq)
  obtain ⟨hnone, hfailed, -⟩ := hw.running ha hqueue
  have ho : attemptOpen (openAttempt w filename dt).ctl = true :=
    congrArg Ledger.attempting (ledger_openAttempt w filename dt)
  refine ⟨steady_openAttempt hw.toSteady ha hq dt, fun _ _ => ⟨hnone, fun a hm => ?_, ho.symm⟩,
    fun _ => ⟨_, _, rfl, rfl⟩, fun _ hu => ?_, fun older hold _ => (hw.verdict_open ha hqueue hold).elim⟩
  · rcases List.mem_append.mp hm with hm | hm
    · exact hfailed a hm
    · rw [List.mem_singleton.mp hm]
      exact AttemptResult.noConfusion
  · cases hu

theorem judged_move (h : Move P Q w t) (hw : Judged w) : Judged t := by
  have hs := h.steady hw.toSteady
  cases h with
  | calm h => exact judged_calm h hw
  | attempt u filename dt arming ha hq hp h =>
      exact tried_keeps (fun _ _ hu hc => judged_calm hc hu) h (judged_openAttempt hw ha hq dt) arming
  | retry hu => exact ⟨hs, hw.running, hw.credited, fun _ hnone => absurd hnone hu, hw.judged⟩
  | connect position filename hu hq ho =>
      refine ⟨hs, hw.running, hw.credited, fun hopen _ => ⟨ho hopen, rfl⟩, hw.judged⟩

theorem judged_turn (h : Turn P Q w t) (hw : Judged w) : Judged t := by
  have hs := h.steady hw.toSteady
  cases h with
  | move h => exact judged_move h hw
  | prepare ha =>
      have ho := hw.inactive ha
      exact ⟨hs, fun _ hq => absurd rfl hq, fun hopen => Bool.noConfusion (ho.symm.trans hopen),
        fun hopen => Bool.noConfusion (ho.symm.trans hopen), fun _ _ hq => absurd rfl hq⟩
  | load queue hq hn h =>
      refine ⟨hs, fun _ _ => ⟨rfl, fun a hm => ?_, rfl⟩, fun ho => ?_, fun ho => ?_, fun older hold => ?_⟩
      · cases hm
      · cases ho
      · cases ho
      · cases hold

theorem judged_unregister (hw : Judged w) (callback : Callback) : Judged (unregister w callback) := by
  have hs := steady_unregister hw.toSteady callback
  cases callback with
  | settle | timeout | tick | reconnect => exact ⟨hs, hw.running, hw.credited, hw.connected, hw.judged⟩

theorem judged_step {a : MainWindow.Action} (hw : Judged w) (ht : step w a = some t) : Judged t :=
  step_keeps (fun _ _ hu h => judged_turn h hu) (fun _ callback hu => judged_unregister hu callback)
    (fun _ hu => hu.named) ht (stepAllowed_free w a) hw

theorem initial_judged : Judged initial where
  toSteady := initial_steady
  running ha := by cases ha
  credited ho := by cases ho
  connected ho := by cases ho
  judged older hold := by cases hold

/-- In every state of every run, whichever connect calls its CONNECTED signals are due
to, a success is attributed rightly exactly when its signal came in time. -/
theorem success_attributed_iff (origin : Nat → Option Nat) (actions : List MainWindow.Action) :
    AllStates step (fun w => Attributed origin w ↔ InTime origin w) initial actions :=
  (allStates_of_invariant (fun _ _ _ hw ht => judged_step hw ht) initial_judged actions).mono
    fun _ h => h.attributed_iff origin

def comesUpSettling : List MainWindow.Action :=
  [.backend (some .openVpn3), .load ["a.ovpn", "b.ovpn"], .speedTestClick,
    .speedTestDone 0 [("a.ovpn", none)] {} {}, .fastest 0 {} {}, .fire 1 (30 * second) {},
    .event 0 (.bool true) none {}]

theorem comesUpSettling_records :
    (run step initial comesUpSettling).map
        (fun t => (t.ctl.phase, t.ctl.queue, t.ctl.attempts.map ConnectionAttempt.result,
          (successBefore t.trace).isSome)) =
      some (.succeeded, ["a.ovpn", "b.ovpn"], [.timeout], true) := by
  decide

theorem success_misattributed :
    ¬ ∀ origin actions, AllStates step (Attributed origin) initial actions := by
  intro h
  obtain ⟨t, ht, he⟩ := Option.map_eq_some_iff.mp comesUpSettling_records
  simp only [Prod.mk.injEq] at he
  obtain ⟨-, hqueue, hresults, hsuccess⟩ := he
  obtain ⟨older, hold⟩ := Option.isSome_iff_exists.mp hsuccess
  have hA := (h (fun _ => none) comesUpSettling).last ht
  obtain ⟨⟨rest, a, hattempts, hcredited, -⟩, -⟩ :=
    hA older hold (by rw [hqueue]; exact List.cons_ne_nil _ _)
  have hm : a.result ∈ t.ctl.attempts.map ConnectionAttempt.result := by
    rw [hattempts]
    exact List.mem_map_of_mem (List.mem_append_right rest List.mem_cons_self)
  rw [hresults, hcredited] at hm
  revert hm
  decide

end EovpnPro.SuccessAttribution
