import EovpnPro.CascadeLedger
import Mathlib.Logic.Relation

namespace EovpnPro.CascadeMoves

open AutoConnect Events Sources AppState WindowEvents CascadeController MainWindow CascadeLedger Relation

def untried : List Act → Option Nat
  | [] => none
  | .attempt k :: _ => some k
  | .connect (some _) _ :: _ | .begin :: _ => none
  | _ :: older => untried older

def aside : Act → Bool
  | .polled _ | .connect none _ | .cancelOperation | .up | .scheduled => true
  | .begin | .attempt _ | .advance _ | .connect (some _) _ | .disconnect | .ended _ => false

def closeCancelled (w : World) (closing : Time) : World :=
  completeActiveAttempt ((endRun w .cancelled).pass closing) .cancelled (some "cancelled")
    (some "Auto-connect cancelled by the user.")

def failing : AttemptResult → Bool
  | .timeout | .auth | .error | .disconnect | .missing => true
  | .pending | .backendError | .cancelled | .success => false

/-- Everything the controller does but to begin a run and to try a candidate. It
disconnects in no other phase than SETTLING. A candidate times out when its deadline
has passed, or when `Q` allows it. -/
inductive Calm (Q : Controller → Time → Prop) : World → World → Prop
  | window (w : World) (win : Window) : Calm Q w { w with win }
  | pass (w : World) (dt : Time) : Calm Q w (w.pass dt)
  | note (w : World) (act : Act) (h : aside act = true) : Calm Q w (w.record act)
  | down (w : World) (h : w.ctl.active = true → w.ctl.phase = .settling) : Calm Q w (w.record .disconnect)
  | reconnect (w : World) (lost : Option String) :
      Calm Q w { w with sched := add w.sched w.clock (3 * second) (.reconnect lost) }
  | flags (w : World) (expectDisconnect : Bool) (pendingFailureMessage : Option String)
      (autoCascadeAfterTest : Bool) :
      Calm Q w
        { w with ctl := { w.ctl with expectDisconnect, pendingFailureMessage, autoCascadeAfterTest } }
  | forgetTimeout (w : World) : Calm Q w { w with ctl := { w.ctl with timeoutId := none } }
  | disarm (w : World) : Calm Q w (disarmTimers w false)
  | arm (w : World) (dt : Time) : Calm Q w (armTimeoutAndTicks w dt)
  | settle (w : World) (h : w.ctl.active = true → w.ctl.phase = .settling) : Calm Q w (armSettle w)
  | freeze (w : World) :
      Calm Q w { w with ctl := { w.ctl with deadline := w.ctl.deadline + progressTickMs * millisecond } }
  | extend (w : World) (h : w.ctl.timeoutId = none) :
      Calm Q w { w with ctl := { w.ctl with deadline := w.clock + 4 * second } }
  | leave (w : World) (closing : Time) (reason : AttemptResult) (code message : Option String)
      (ha : w.ctl.active = true) (hp : failing reason = true)
      (ht : reason = .timeout → w.ctl.deadline ≤ w.clock ∨ Q w.ctl (w.clock + closing)) :
      Calm Q w (leaveCandidate w closing reason code message)
  | missing (w : World) (closing : Time) (code message : Option String) (ha : w.ctl.active = true) :
      Calm Q w (leaveCandidate (setDisconnectRetries w 0) closing .missing code message)
  | await (w : World) (h : w.ctl.attempts = []) : Calm Q w (awaitDisconnect w)
  | reset (w : World) (ha : w.ctl.active = false) : Calm Q w (setDisconnectRetries w 0)
  | retried (w : World) (h : 3 < w.ctl.disconnectRetries + 1) :
      Calm Q w (setDisconnectRetries w (w.ctl.disconnectRetries + 1))
  | adopt (w : World) (current : Option String) (h : w.ctl.phase = .preparing) :
      Calm Q w { w with ctl := { w.ctl with current } }
  | succeed (w : World) (ha : w.ctl.active = true) : Calm Q w (finishSucceeded w)
  | exhaust (w : World) : Calm Q w (finishExhausted w)
  | cancelled (w : World) (closing : Time) :
      Calm Q w (closeCancelled { w with ctl := { w.ctl with gen := w.ctl.gen + 1 } } closing)
  | ended (w : World) (h : w.ctl.active = false) : Calm Q w (w.record (.ended .cancelled))
  | drop (w : World) (id : Nat) : Calm Q w { w with sched := remove w.sched id }
  | rearm (w : World) (id : Nat) (now : Time) : Calm Q w { w with sched := rearm w.sched id now }

/-- What the controller does in a run. A candidate whose attempt is open is tried
again only where `P` allows it. -/
inductive Move (P : Controller → Prop) (Q : Controller → Time → Prop) : World → World → Prop
  | calm {w t : World} (h : Calm Q w t) : Move P Q w t
  | attempt (w u : World) (filename : String) (dt arming : Time) (ha : w.ctl.active = true)
      (hq : w.ctl.queue[w.ctl.index]? = some filename) (hp : attemptOpen w.ctl = true → P w.ctl)
      (h : ReflTransGen (Calm Q) (openAttempt w filename dt) u) : Move P Q w (armTimeoutAndTicks u arming)
  | retry (w : World) (hu : untried w.trace ≠ none) (h : w.ctl.disconnectRetries + 1 ≤ 3) :
      Move P Q w (awaitDisconnect (setDisconnectRetries w (w.ctl.disconnectRetries + 1)))
  | connect (w : World) (position : Nat) (filename : String) (hu : untried w.trace = some position)
      (hq : w.ctl.queue[position]? = some filename)
      (ho : attemptOpen w.ctl = true → w.ctl.phase = .connecting) :
      Move P Q w ((setDisconnectRetries w 0).record (.connect (some position) filename))

inductive Turn (P : Controller → Prop) (Q : Controller → Time → Prop) : World → World → Prop
  | move {w t : World} (h : Move P Q w t) : Turn P Q w t
  | prepare (w : World) (h : w.ctl.active = false) : Turn P Q w (showPreparing w)
  | load (w : World) (queue : List String) (hq : queue ≠ []) (hn : "" ∉ queue)
      (h : w.ctl.active = true → w.ctl.phase = .preparing) : Turn P Q w (loadQueue w queue)

variable {P : Controller → Prop} {Q : Controller → Time → Prop} {w t : World}

def closeActive (c : Controller) (now : Time) (result : AttemptResult) (code message : Option String) :
    List ConnectionAttempt :=
  match c.activeAttempt with
  | none => c.attempts
  | some k => c.attempts.modify k (closeAttempt now c.deadline result code message)

theorem completeActiveAttempt_eq (w : World) (result : AttemptResult) (code message : Option String) :
    completeActiveAttempt w result code message =
      { w with ctl := { w.ctl with attempts := closeActive w.ctl w.clock result code message } } := by
  cases hk : w.ctl.activeAttempt with
  | none =>
      simp only [completeActiveAttempt, closeActive, hk]
      rw [← hk]
  | some k => simp only [completeActiveAttempt, closeActive, hk]

theorem failCurrent_eq (w : World) (closing : Time) (reason : AttemptResult)
    (code message : Option String) : ∃ clock failures attempts,
      failCurrent w closing reason code message =
        { w with clock, ctl := { w.ctl with failures, attempts } } ∧
      (attempts = w.ctl.attempts ∨
        ∃ code message, attempts = closeActive w.ctl (w.clock + closing) reason code message) := by
  simp only [failCurrent]
  split
  · exact ⟨_, _, _, rfl, .inl rfl⟩
  · split
    · exact ⟨_, _, _, rfl, .inl rfl⟩
    · rw [completeActiveAttempt_eq]
      exact ⟨_, _, _, rfl, .inr ⟨_, _, rfl⟩⟩

theorem leaveCandidate_eq (w : World) (closing : Time) (reason : AttemptResult)
    (code message : Option String) :
    ∃ clock failures attempts,
      (leaveCandidate w closing reason code message =
        let w := disarmTimers w false
        { w with
          clock
          trace := .advance w.ctl.index :: w.trace
          ctl := { w.ctl with
            failures, attempts, index := w.ctl.index + 1, phase := .settling, expectDisconnect := true }
          win := { w.win with manualDisconnect := true } }) ∧
      (attempts = w.ctl.attempts ∨
        ∃ code message, attempts = closeActive w.ctl (w.clock + closing) reason code message) := by
  obtain ⟨clock, failures, attempts, h, hrecords⟩ := failCurrent_eq w closing reason code message
  refine ⟨clock, failures, attempts, ?_, hrecords⟩
  rw [leaveCandidate, h]
  rfl

theorem untried_note {act : Act} (h : aside act = true) (older : List Act) :
    untried (act :: older) = untried older := by
  cases act with
  | polled | cancelOperation | up | scheduled => rfl
  | connect position config =>
      cases position with
      | none => rfl
      | some k => cases h
  | begin | attempt | advance | disconnect | ended => cases h

/-- Nothing calm touches the queue or the newest attempt. -/
theorem Calm.untried (h : Calm Q w t) : untried t.trace = untried w.trace ∧ t.ctl.queue = w.ctl.queue := by
  cases h with
  | note act h => exact ⟨untried_note h w.trace, rfl⟩
  | leave closing reason code message =>
      obtain ⟨clock, failures, attempts, heq, -⟩ := leaveCandidate_eq w closing reason code message
      rw [heq]
      exact ⟨rfl, rfl⟩
  | missing closing code message =>
      obtain ⟨clock, failures, attempts, heq, -⟩ :=
        leaveCandidate_eq (setDisconnectRetries w 0) closing .missing code message
      rw [heq]
      exact ⟨rfl, rfl⟩
  | succeed =>
      rw [finishSucceeded, completeActiveAttempt_eq]
      exact ⟨rfl, rfl⟩
  | exhaust =>
      rw [finishExhausted, completeActiveAttempt_eq]
      exact ⟨rfl, rfl⟩
  | cancelled closing =>
      rw [closeCancelled, completeActiveAttempt_eq]
      exact ⟨rfl, rfl⟩
  | window | pass | down | reconnect | flags | forgetTimeout | disarm | arm | settle | freeze | extend
  | await | reset | retried | adopt | ended | drop | rearm => exact ⟨rfl, rfl⟩

theorem untried_calm (h : ReflTransGen (Calm Q) w t) :
    untried t.trace = untried w.trace ∧ t.ctl.queue = w.ctl.queue := by
  induction h with
  | refl => exact ⟨rfl, rfl⟩
  | tail _ hstep ih => exact ⟨hstep.untried.1.trans ih.1, hstep.untried.2.trans ih.2⟩

theorem attemptOpen_nil {c : Controller} (h : c.attempts = []) : attemptOpen c = false := by
  simp only [attemptOpen, h]
  cases c.activeAttempt <;> rfl

theorem attemptOpen_leaveCandidate (w : World) (closing : Time) (reason : AttemptResult)
    (code message : Option String) : attemptOpen (leaveCandidate w closing reason code message).ctl =
      if w.ctl.current.any (fun name => name ≠ "") then false else attemptOpen w.ctl :=
  congrArg AttemptLedger.Ledger.attempting (ledger_leaveCandidate w closing reason code message)

theorem attemptOpen_finishSucceeded (w : World) : attemptOpen (finishSucceeded w).ctl = false :=
  congrArg AttemptLedger.Ledger.attempting (ledger_finishSucceeded w)

theorem attemptOpen_finishExhausted (w : World) : attemptOpen (finishExhausted w).ctl = false :=
  congrArg AttemptLedger.Ledger.attempting (ledger_finishExhausted w)

theorem attemptOpen_closeCancelled (w : World) (closing : Time) :
    attemptOpen (closeCancelled w closing).ctl = false :=
  congrArg AttemptLedger.Ledger.attempting (ledger_completeActiveAttempt _ _ _ _)

/-- An attempt that is open is being connected, under a name. -/
def Connecting (w : World) : Prop :=
  attemptOpen w.ctl = true → w.ctl.phase = .connecting ∧ w.ctl.current.any (fun name => name ≠ "") = true

theorem connecting_openAttempt (w : World) {filename : String} (hn : filename ≠ "") (dt : Time) :
    Connecting (openAttempt w filename dt) :=
  fun _ => ⟨rfl, decide_eq_true hn⟩

/-- Only a retry makes the controller settle while its attempt stays open. -/
theorem Calm.connecting (h : Calm Q w t) (hw : Connecting w) : Connecting t := by
  intro ho
  cases h with
  | leave closing reason code message =>
      rw [attemptOpen_leaveCandidate] at ho
      split at ho
      · cases ho
      · rename_i hc
        exact absurd (hw ho).2 hc
  | missing closing code message =>
      rw [attemptOpen_leaveCandidate] at ho
      split at ho
      · cases ho
      · rename_i hc
        exact absurd (hw ho).2 hc
  | await h =>
      have hnone : attemptOpen (awaitDisconnect w).ctl = false := attemptOpen_nil h
      exact Bool.noConfusion (hnone.symm.trans ho)
  | adopt current h => exact CascadePhase.noConfusion (h.symm.trans (hw ho).1)
  | succeed => exact Bool.noConfusion ((attemptOpen_finishSucceeded w).symm.trans ho)
  | exhaust => exact Bool.noConfusion ((attemptOpen_finishExhausted w).symm.trans ho)
  | cancelled closing => exact Bool.noConfusion ((attemptOpen_closeCancelled _ closing).symm.trans ho)
  | window | pass | note | down | reconnect | flags | forgetTimeout | disarm | arm | settle | freeze | extend
  | reset | retried | ended | drop | rearm => exact hw ho

theorem connecting_calm (h : ReflTransGen (Calm Q) w t) (hw : Connecting w) : Connecting t := by
  induction h with
  | refl => exact hw
  | tail _ hstep ih => exact hstep.connecting ih

/-- How a record is closed: never as pending, as a success only when the run ends,
and as a timeout only when its deadline has come or `Q` allows it. -/
structure Closes (Q : Controller → Time → Prop) (w t : World) (now : Time) (result : AttemptResult) :
    Prop where
  settled : result ≠ .pending
  succeeded : result = .success → t.ctl.active = false
  timely : result = .timeout → w.ctl.deadline ≤ now ∨ Q w.ctl now

theorem closes_of_failing {now : Time} {result : AttemptResult} (h : failing result = true)
    (ht : result = .timeout → w.ctl.deadline ≤ now ∨ Q w.ctl now) : Closes Q w t now result where
  settled hp := by rw [hp] at h; cases h
  succeeded hs := by rw [hs] at h; cases h
  timely := ht

/-- Of the records, only the active one is ever touched, to close it. -/
theorem Calm.records (h : Calm Q w t) : t.ctl.activeAttempt = w.ctl.activeAttempt ∧
    (t.ctl.attempts = w.ctl.attempts ∨ ∃ now result code message,
      t.ctl.attempts = closeActive w.ctl now result code message ∧ Closes Q w t now result) := by
  cases h with
  | leave closing reason code message ha hp ht =>
      obtain ⟨clock, failures, attempts, heq, hrecords⟩ := leaveCandidate_eq w closing reason code message
      have hcloses : Closes Q w (leaveCandidate w closing reason code message) (w.clock + closing) reason :=
        closes_of_failing hp fun htime => (ht htime).imp_left fun hd =>
          Nat.le_trans hd (Nat.le_add_right _ _)
      rw [heq] at hcloses ⊢
      refine ⟨rfl, hrecords.imp_right ?_⟩
      rintro ⟨c, m, hattempts⟩
      exact ⟨_, reason, c, m, hattempts, hcloses⟩
  | missing closing code message =>
      obtain ⟨clock, failures, attempts, heq, hrecords⟩ :=
        leaveCandidate_eq (setDisconnectRetries w 0) closing .missing code message
      rw [heq]
      refine ⟨rfl, hrecords.imp_right ?_⟩
      rintro ⟨c, m, hattempts⟩
      exact ⟨_, .missing, c, m, hattempts,
        closes_of_failing rfl fun htime => AttemptResult.noConfusion htime⟩
  | succeed =>
      rw [finishSucceeded, completeActiveAttempt_eq]
      exact ⟨rfl, .inr ⟨_, .success, _, _, rfl, AttemptResult.noConfusion, fun _ => rfl,
        AttemptResult.noConfusion⟩⟩
  | exhaust =>
      rw [finishExhausted, completeActiveAttempt_eq]
      exact ⟨rfl, .inr ⟨_, .backendError, _, _, rfl, AttemptResult.noConfusion, fun _ => rfl,
        AttemptResult.noConfusion⟩⟩
  | cancelled closing =>
      rw [closeCancelled, completeActiveAttempt_eq]
      exact ⟨rfl, .inr ⟨_, .cancelled, _, _, rfl, AttemptResult.noConfusion, fun _ => rfl,
        AttemptResult.noConfusion⟩⟩
  | window | pass | note | down | reconnect | flags | forgetTimeout | disarm | arm | settle | freeze | extend
  | await | reset | retried | adopt | ended | drop | rearm => exact ⟨rfl, .inl rfl⟩

theorem length_closeActive (c : Controller) (now : Time) (result : AttemptResult)
    (code message : Option String) :
    (closeActive c now result code message).length = c.attempts.length := by
  simp only [closeActive]
  split
  · rfl
  · exact List.length_modify _ _ _

theorem getElem?_closeActive {c : Controller} {k : Nat} {a : ConnectionAttempt}
    (h : c.attempts[k]? = some a)
    (hs : a.finishedAt.isSome = true ∨ c.activeAttempt ≠ some k) (now : Time) (result : AttemptResult)
    (code message : Option String) : (closeActive c now result code message)[k]? = some a := by
  simp only [closeActive]
  split
  · exact h
  · rename_i j hj
    rw [List.getElem?_modify, h]
    split
    · rename_i hjk
      rcases hs with hs | hs
      · simp only [Option.map_eq_map, Option.map_some, closeAttempt, hs, if_true]
      · exact absurd (hj.trans (congrArg some hjk)) hs
    · rfl

theorem of_closeActive {c : Controller} {now : Time} {result : AttemptResult} {code message : Option String}
    {k : Nat} {b : ConnectionAttempt} (h : (closeActive c now result code message)[k]? = some b) :
    ∃ a, c.attempts[k]? = some a ∧
      (b = a ∧ (a.finishedAt.isSome = true ∨ c.activeAttempt ≠ some k) ∨
        c.activeAttempt = some k ∧ a.finishedAt = none ∧
          b = closeAttempt now c.deadline result code message a) := by
  simp only [closeActive] at h
  split at h
  · rename_i hnone
    exact ⟨b, h, .inl ⟨rfl, .inr fun hk => by rw [hnone] at hk; cases hk⟩⟩
  · rename_i j hj
    rw [List.getElem?_modify] at h
    obtain ⟨a, ha, hb⟩ := Option.map_eq_some_iff.mp h
    refine ⟨a, ha, ?_⟩
    by_cases hjk : j = k
    · rw [if_pos hjk] at hb
      cases hf : a.finishedAt with
      | some time =>
          have hsome : a.finishedAt.isSome = true := by rw [hf]; rfl
          refine .inl ⟨?_, .inl rfl⟩
          rw [← hb, closeAttempt, if_pos hsome]
      | none => exact .inr ⟨hj.trans (congrArg some hjk), rfl, hb.symm⟩
    · rw [if_neg hjk] at hb
      exact .inl ⟨hb.symm, .inr fun hk => hjk (Option.some.inj (hj.symm.trans hk))⟩

theorem finished_of_not_open {c : Controller} (h : attemptOpen c = false) {k : Nat} {a : ConnectionAttempt}
    (hk : c.activeAttempt = some k) (ha : c.attempts[k]? = some a) : a.finishedAt.isSome = true := by
  simp only [attemptOpen, hk, Option.bind_some, ha, Option.any_some] at h
  cases hf : a.finishedAt with
  | some time => rfl
  | none =>
      rw [hf] at h
      cases h

theorem open_record {c : Controller} (h : attemptOpen c = true) :
    ∃ k a, c.activeAttempt = some k ∧ c.attempts[k]? = some a ∧ a.finishedAt = none := by
  cases hk : c.activeAttempt with
  | none => simp only [attemptOpen, hk, Option.bind_none, Option.any_none, Bool.false_eq_true] at h
  | some k =>
      simp only [attemptOpen, hk, Option.bind_some] at h
      cases ha : c.attempts[k]? with
      | none => simp only [ha, Option.any_none, Bool.false_eq_true] at h
      | some a =>
          simp only [ha, Option.any_some] at h
          exact ⟨k, a, rfl, ha, Option.isNone_iff_eq_none.mp h⟩

theorem closeActive_closed {c : Controller} (h : attemptOpen c = false) (now : Time)
    (result : AttemptResult)
    (code message : Option String) : closeActive c now result code message = c.attempts := by
  apply List.ext_getElem?
  intro k
  cases ha : c.attempts[k]? with
  | none =>
      have hlength := List.getElem?_eq_none_iff.mp ha
      rw [← length_closeActive c now result code message] at hlength
      exact List.getElem?_eq_none_iff.mpr hlength
  | some a =>
      refine getElem?_closeActive ha ?_ now result code message
      by_cases hk : c.activeAttempt = some k
      · exact .inl (finished_of_not_open h hk ha)
      · exact .inr hk

def Sealed (k : Nat) (a : ConnectionAttempt) (w : World) : Prop :=
  w.ctl.attempts[k]? = some a ∧ (a.finishedAt.isSome = true ∨ w.ctl.activeAttempt ≠ some k)

theorem Calm.sealed {k : Nat} {a : ConnectionAttempt} (h : Calm Q w t) (hw : Sealed k a w) :
    Sealed k a t := by
  obtain ⟨hk, hrecords⟩ := h.records
  refine ⟨?_, hk ▸ hw.2⟩
  rcases hrecords with heq | ⟨now, result, code, message, heq, -⟩
  · rw [heq]
    exact hw.1
  · rw [heq]
    exact getElem?_closeActive hw.1 hw.2 now result code message

theorem sealed_openAttempt {k : Nat} {a : ConnectionAttempt} (hw : w.ctl.attempts[k]? = some a)
    (filename : String) (dt : Time) : Sealed k a (openAttempt w filename dt) := by
  have hlt : k < w.ctl.attempts.length := (List.getElem?_eq_some_iff.mp hw).1
  refine ⟨(List.getElem?_append_left hlt).trans hw, .inr fun hk => ?_⟩
  exact absurd (Option.some.inj hk) (Nat.ne_of_gt hlt)

theorem Move.sealed {k : Nat} {a : ConnectionAttempt} (h : Move P Q w t) (hw : Sealed k a w) :
    Sealed k a t := by
  cases h with
  | calm h => exact h.sealed hw
  | attempt u filename dt arming ha hq hp h =>
      have hopen : Sealed k a u := by
        induction h with
        | refl => exact sealed_openAttempt hw.1 filename dt
        | tail _ hstep ih => exact hstep.sealed ih
      exact hopen
  | retry => exact hw
  | connect => exact hw

/-- What every turn keeps: an open attempt is the newest one, and it is for the
candidate that the index points to. -/
structure Steady (w : World) : Prop where
  named : "" ∉ w.ctl.queue
  newest : ∀ k, w.ctl.activeAttempt = some k → k + 1 = w.ctl.attempts.length
  opened : attemptOpen w.ctl = true → w.ctl.active = true ∧ w.ctl.phase ≠ .preparing ∧
    ∃ name, w.ctl.queue[w.ctl.index]? = some name ∧ w.ctl.current = some name
  preparing : w.ctl.phase = .preparing → w.ctl.queue = []

theorem Steady.inactive (h : Steady w) (ha : w.ctl.active = false) : attemptOpen w.ctl = false := by
  cases ho : attemptOpen w.ctl with
  | false => rfl
  | true => exact Bool.noConfusion (ha.symm.trans (h.opened ho).1)

theorem Steady.left (h : Steady w) (closing : Time) (reason : AttemptResult)
    (code message : Option String) :
    attemptOpen (leaveCandidate w closing reason code message).ctl = false := by
  rw [attemptOpen_leaveCandidate]
  cases ho : attemptOpen w.ctl with
  | false => exact ite_self false
  | true =>
      obtain ⟨-, -, name, hq, hc⟩ := h.opened ho
      have hname : name ≠ "" := fun he => h.named (he ▸ List.mem_of_getElem? hq)
      rw [if_pos]
      rw [hc]
      exact decide_eq_true hname

theorem Steady.retries (h : Steady w) (retries : Nat) : Steady (setDisconnectRetries w retries) :=
  ⟨h.named, h.newest, h.opened, h.preparing⟩

theorem Steady.told (h : Steady w) (act : Act) : Steady (w.record act) :=
  ⟨h.named, h.newest, h.opened, h.preparing⟩

theorem Steady.closed (h : Steady w) (ho : attemptOpen t.ctl = false) (hq : t.ctl.queue = w.ctl.queue)
    (hk : t.ctl.activeAttempt = w.ctl.activeAttempt) (hl : t.ctl.attempts.length = w.ctl.attempts.length)
    (hp : t.ctl.phase = .preparing → w.ctl.phase = .preparing) : Steady t where
  named := hq ▸ h.named
  newest k hactive := (h.newest k (hk.symm.trans hactive)).trans hl.symm
  opened hopen := Bool.noConfusion (ho.symm.trans hopen)
  preparing hpre := hq.trans (h.preparing (hp hpre))

theorem Calm.length (h : Calm Q w t) : t.ctl.attempts.length = w.ctl.attempts.length := by
  rcases h.records.2 with heq | ⟨now, result, code, message, heq, -⟩
  · rw [heq]
  · rw [heq]
    exact length_closeActive w.ctl now result code message

theorem Calm.steady (h : Calm Q w t) (hw : Steady w) : Steady t := by
  have hlength := h.length
  have hqueue := h.untried.2
  have hactive := h.records.1
  cases h with
  | leave closing reason code message =>
      exact hw.closed (hw.left closing reason code message) hqueue hactive hlength CascadePhase.noConfusion
  | missing closing code message =>
      exact hw.closed ((hw.retries 0).left closing .missing code message) hqueue hactive hlength
        CascadePhase.noConfusion
  | await h =>
      exact hw.closed (t := awaitDisconnect w) (attemptOpen_nil h) hqueue hactive hlength
        CascadePhase.noConfusion
  | adopt current h =>
      have ho : attemptOpen w.ctl = false := by
        cases ho : attemptOpen w.ctl with
        | false => rfl
        | true => exact absurd h (hw.opened ho).2.1
      exact hw.closed (t := { w with ctl := { w.ctl with current } }) ho hqueue hactive hlength id
  | succeed =>
      refine hw.closed (attemptOpen_finishSucceeded w) hqueue hactive hlength fun hp => ?_
      rw [finishSucceeded, completeActiveAttempt_eq] at hp
      cases hp
  | exhaust =>
      refine hw.closed (attemptOpen_finishExhausted w) hqueue hactive hlength fun hp => ?_
      rw [finishExhausted, completeActiveAttempt_eq] at hp
      cases hp
  | cancelled closing =>
      refine hw.closed (attemptOpen_closeCancelled _ closing) hqueue hactive hlength fun hp => ?_
      rw [closeCancelled, completeActiveAttempt_eq] at hp
      cases hp
  | window | pass | note | down | reconnect | flags | forgetTimeout | disarm | arm | settle | freeze | extend
  | reset | retried | ended | drop | rearm => exact ⟨hw.named, hw.newest, hw.opened, hw.preparing⟩

theorem calms_keep {I : World → Prop} (hcalm : ∀ u v, I u → Calm Q u v → I v)
    (h : ReflTransGen (Calm Q) w t) (hw : I w) : I t := by
  induction h with
  | refl => exact hw
  | tail _ hstep ih => exact hcalm _ _ ih hstep

theorem tried_keeps {I : World → Prop} (hcalm : ∀ u v, I u → Calm Q u v → I v) {filename : String}
    {dt : Time} {u : World} (h : ReflTransGen (Calm Q) (openAttempt w filename dt) u)
    (hw : I (openAttempt w filename dt)) (arming : Time) : I (armTimeoutAndTicks u arming) :=
  hcalm _ _ (calms_keep hcalm h hw) (.arm u arming)

theorem steady_openAttempt (h : Steady w) (ha : w.ctl.active = true) {filename : String}
    (hq : w.ctl.queue[w.ctl.index]? = some filename) (dt : Time) :
    Steady (openAttempt w filename dt) where
  named := h.named
  newest k hk := by
    obtain rfl := Option.some.inj hk
    simp only [openAttempt, World.pass_ctl, World.record_ctl, List.length_append, List.length_singleton]
  opened _ := ⟨ha, CascadePhase.noConfusion, filename, hq, rfl⟩
  preparing := CascadePhase.noConfusion

theorem Move.steady (h : Move P Q w t) (hw : Steady w) : Steady t := by
  cases h with
  | calm h => exact h.steady hw
  | attempt u filename dt arming ha hq hp h =>
      exact tried_keeps (fun _ _ hu hc => hc.steady hu) h (steady_openAttempt hw ha hq dt) arming
  | retry =>
      refine ⟨hw.named, hw.newest, fun ho => ?_, CascadePhase.noConfusion⟩
      obtain ⟨ha, -, hcurrent⟩ := hw.opened ho
      exact ⟨ha, CascadePhase.noConfusion, hcurrent⟩
  | connect => exact ⟨hw.named, hw.newest, hw.opened, hw.preparing⟩

theorem moves_keep {I : World → Prop} (hmove : ∀ u v, I u → Move P Q u v → I v)
    (h : ReflTransGen (Move P Q) w t) (hw : I w) : I t := by
  induction h with
  | refl => exact hw
  | tail _ hstep ih => exact hmove _ _ ih hstep

theorem Turn.steady (h : Turn P Q w t) (hw : Steady w) : Steady t := by
  cases h with
  | move h => exact h.steady hw
  | prepare ha =>
      exact ⟨List.not_mem_nil, hw.newest,
        fun ho => Bool.noConfusion ((hw.inactive ha).symm.trans ho), fun _ => rfl⟩
  | load queue hq hn =>
      refine ⟨hn, fun k hk => ?_, fun ho => ?_, CascadePhase.noConfusion⟩
      · cases hk
      · cases ho

theorem initial_steady : Steady initial where
  named := List.not_mem_nil
  newest k hk := by cases hk
  opened ho := by cases ho
  preparing hp := by cases hp

theorem removeSource_subset (s : Scheduler Callback) (id : Option Nat) :
    (removeSource s id).fresh = s.fresh ∧ (removeSource s id).sources ⊆ s.sources := by
  cases id with
  | none => exact ⟨rfl, List.Subset.refl _⟩
  | some id => exact ⟨rfl, List.filter_subset_self _⟩

theorem disarmTimers_subset (w : World) : (disarmTimers w false).sched.fresh = w.sched.fresh ∧
    (disarmTimers w false).sched.sources ⊆ w.sched.sources := by
  obtain ⟨hf1, hs1⟩ := removeSource_subset w.sched w.ctl.timeoutId
  obtain ⟨hf2, hs2⟩ := removeSource_subset (removeSource w.sched w.ctl.timeoutId) w.ctl.tickId
  obtain ⟨hf3, hs3⟩ := removeSource_subset
    (removeSource (removeSource w.sched w.ctl.timeoutId) w.ctl.tickId) w.ctl.settleId
  exact ⟨hf3.trans (hf2.trans hf1), fun s hs => hs1 (hs2 (hs3 hs))⟩

end EovpnPro.CascadeMoves
