import EovpnPro.CascadePaths
import EovpnPro.Runs

namespace EovpnPro.AttemptRecords

open AutoConnect Events Sources AppState WindowEvents CascadeController MainWindow CascadeMoves CascadePaths
open Runs Relation

variable {w t : World}

structure AttemptSummary where
  candidates : Nat
  attempts : Nat
  timeouts : Nat := 0
  handshakeFailures : Nat := 0
  backendErrors : Nat := 0
  cancelled : Nat := 0
  success : Nat := 0
  deriving DecidableEq, Repr

def AttemptSummary.count (s : AttemptSummary) : AttemptResult → AttemptSummary
  | .timeout => { s with timeouts := s.timeouts + 1 }
  | .auth | .error | .disconnect => { s with handshakeFailures := s.handshakeFailures + 1 }
  | .backendError | .missing => { s with backendErrors := s.backendErrors + 1 }
  | .cancelled => { s with cancelled := s.cancelled + 1 }
  | .success => { s with success := s.success + 1 }
  | .pending => s

def attemptSummary (c : Controller) : AttemptSummary :=
  c.attempts.foldl (fun s a => s.count a.result)
    { candidates := c.queue.length, attempts := c.attempts.length }

def AttemptSummary.total (s : AttemptSummary) : Nat :=
  s.timeouts + s.handshakeFailures + s.backendErrors + s.cancelled + s.success

theorem count_attempts (s : AttemptSummary) (result : AttemptResult) :
    (s.count result).attempts = s.attempts := by
  cases result <;> rfl

theorem count_total (s : AttemptSummary) {result : AttemptResult} (h : result ≠ .pending) :
    (s.count result).total = s.total + 1 := by
  cases result with
  | pending => exact absurd rfl h
  | timeout | auth | error | disconnect | missing | backendError | cancelled | success =>
      simp only [AttemptSummary.count, AttemptSummary.total]
      omega

theorem summary_attempts (attempts : List ConnectionAttempt) (s : AttemptSummary) :
    (attempts.foldl (fun s a => s.count a.result) s).attempts = s.attempts := by
  induction attempts generalizing s with
  | nil => rfl
  | cons a attempts ih => exact (ih (s.count a.result)).trans (count_attempts s a.result)

theorem summary_total {attempts : List ConnectionAttempt} (h : ∀ a ∈ attempts, a.result ≠ .pending)
    (s : AttemptSummary) :
    (attempts.foldl (fun s a => s.count a.result) s).total = s.total + attempts.length := by
  induction attempts generalizing s with
  | nil => rfl
  | cons a attempts ih =>
      have hrest := ih (fun b hb => h b (List.mem_cons_of_mem a hb)) (s.count a.result)
      have hfirst := count_total s (h a List.mem_cons_self)
      simp only [List.foldl_cons, List.length_cons]
      omega

/-- Every record but the active one is closed, and all of them are when no run is
active; the counters then add up. -/
structure ClosedRecords (w : World) : Prop where
  closed : ∀ (k : Nat) (a : ConnectionAttempt), w.ctl.attempts[k]? = some a → w.ctl.activeAttempt ≠ some k →
    a.finishedAt.isSome = true ∧ a.result ≠ .pending
  finished : w.ctl.active = false → ∀ a ∈ w.ctl.attempts, a.finishedAt.isSome = true
  summed : w.ctl.active = false → (attemptSummary w.ctl).total = (attemptSummary w.ctl).attempts

/-- The condition of one step: no candidate is tried again while its attempt is open. -/
def TriesClosed (w : World) : MainWindow.Action → Prop
  | .fire id after _ => ∀ source gen, due? w.sched id (w.clock + after) = some source →
      source.callback = .settle gen → w.ctl.active = true → gen = w.ctl.gen → attemptOpen w.ctl = false
  | _ => True

structure Kept (w : World) : Prop extends Steady w where
  closed : ∀ (k : Nat) (a : ConnectionAttempt), w.ctl.attempts[k]? = some a →
    w.ctl.activeAttempt ≠ some k → a.finishedAt.isSome = true
  settled : ∀ (k : Nat) (a : ConnectionAttempt), w.ctl.attempts[k]? = some a →
    a.finishedAt.isSome = true → a.result ≠ .pending

theorem Kept.all_closed (h : Kept w) (ho : attemptOpen w.ctl = false) {k : Nat} {a : ConnectionAttempt}
    (ha : w.ctl.attempts[k]? = some a) : a.finishedAt.isSome = true := by
  by_cases hk : w.ctl.activeAttempt = some k
  · exact finished_of_not_open ho hk ha
  · exact h.closed k a ha hk

theorem Kept.closedRecords (h : Kept w) : ClosedRecords w := by
  have hfinished : w.ctl.active = false → ∀ a ∈ w.ctl.attempts, a.finishedAt.isSome = true ∧
      a.result ≠ .pending := by
    intro ha a hm
    obtain ⟨k, hk⟩ := List.mem_iff_getElem?.mp hm
    have hf := h.all_closed (h.inactive ha) hk
    exact ⟨hf, h.settled k a hk hf⟩
  refine ⟨fun k a ha hk => ?_, fun ha a hm => (hfinished ha a hm).1, fun ha => ?_⟩
  · have hf := h.closed k a ha hk
    exact ⟨hf, h.settled k a ha hf⟩
  · simp only [attemptSummary, summary_attempts]
    rw [summary_total fun a hm => (hfinished ha a hm).2]
    exact Nat.zero_add _

theorem kept_calm {Q : Controller → Time → Prop} (h : Calm Q w t) (hw : Kept w) : Kept t := by
  refine ⟨h.steady hw.toSteady, fun k a ha hk => ?_, fun k a ha hf => ?_⟩
  all_goals
    obtain ⟨hactive, hrecords⟩ := h.records
    rcases hrecords with heq | ⟨now, result, code, message, heq, hcloses⟩
    all_goals rw [heq] at ha
  · exact hw.closed k a ha (hactive ▸ hk)
  · obtain ⟨b, hb, hsame | ⟨hopen, -⟩⟩ := of_closeActive ha
    · obtain ⟨rfl, -⟩ := hsame
      exact hw.closed k a hb (hactive ▸ hk)
    · exact absurd (hactive.trans hopen) hk
  · exact hw.settled k a ha hf
  · obtain ⟨b, hb, hsame | ⟨-, hnone, rfl⟩⟩ := of_closeActive ha
    · obtain ⟨rfl, -⟩ := hsame
      exact hw.settled k a hb hf
    · rw [closeAttempt, hnone]
      exact hcloses.settled

theorem kept_openAttempt (hw : Kept w) (ha : w.ctl.active = true) {filename : String}
    (hq : w.ctl.queue[w.ctl.index]? = some filename) (ho : attemptOpen w.ctl = false) (dt : Time) :
    Kept (openAttempt w filename dt) := by
  have hold : ∀ k a, (openAttempt w filename dt).ctl.attempts[k]? = some a →
      w.ctl.attempts[k]? = some a ∨ k = w.ctl.attempts.length ∧ a.finishedAt = none := by
    intro k a hk
    by_cases hlt : k < w.ctl.attempts.length
    · exact .inl ((List.getElem?_append_left hlt).symm.trans hk)
    · have hlast := (List.getElem?_append_right (Nat.le_of_not_lt hlt)).symm.trans hk
      obtain ⟨hzero, hnew⟩ := List.getElem?_eq_some_iff.mp hlast
      simp only [List.length_singleton] at hzero
      refine .inr ⟨by omega, ?_⟩
      rw [← hnew, List.getElem_singleton]
  refine ⟨steady_openAttempt hw.toSteady ha hq dt, fun k a hk hactive => ?_, fun k a hk hf => ?_⟩
  · rcases hold k a hk with hk | ⟨rfl, -⟩
    · exact hw.all_closed ho hk
    · exact absurd rfl hactive
  · rcases hold k a hk with hk | ⟨-, hnone⟩
    · exact hw.settled k a hk hf
    · rw [hnone] at hf
      cases hf

theorem kept_turn {Q : Controller → Time → Prop} (h : Turn (fun _ => False) Q w t) (hw : Kept w) :
    Kept t := by
  have hs := h.steady hw.toSteady
  cases h with
  | move h =>
      cases h with
      | calm h => exact kept_calm h hw
      | attempt u filename dt arming ha hq hp h =>
          have ho : attemptOpen w.ctl = false := Bool.eq_false_iff.mpr hp
          exact tried_keeps (fun _ _ hu hc => kept_calm hc hu) h (kept_openAttempt hw ha hq ho dt) arming
      | retry | connect => exact ⟨hs, hw.closed, hw.settled⟩
  | prepare => exact ⟨hs, hw.closed, hw.settled⟩
  | load queue hq hn h =>
      refine ⟨hs, fun k a ha => ?_, fun k a ha => ?_⟩
      · cases ha
      · cases ha

theorem kept_unregister (hw : Kept w) (callback : Callback) : Kept (unregister w callback) := by
  have hs := steady_unregister hw.toSteady callback
  cases callback with
  | settle | timeout | tick | reconnect => exact ⟨hs, hw.closed, hw.settled⟩

theorem kept_step (hw : Kept w) {a : MainWindow.Action} (hg : TriesClosed w a) (ht : step w a = some t) :
    Kept t := by
  refine step_keeps (P := fun _ => False) (Q := fun _ _ => True) (fun _ _ hu h => kept_turn h hu)
    (fun _ callback hu => kept_unregister hu callback) (fun _ hu => hu.named) ht ?_ hw
  refine stepAllowed_of_settle (fun _ _ => trivial) fun id after e source gen heq hs hc ha hgen ho => ?_
  rw [heq] at hg
  exact absurd ((hg source gen hs hc ha hgen).symm.trans ho) Bool.false_ne_true

/-- The record of an attempt that is replaced while it is open stays open. -/
theorem replaced_onSettle (hw : Kept w) (ha : w.ctl.active = true) (ho : attemptOpen w.ctl = true)
    (e : TryEnv) : ¬ ClosedRecords (onSettle w w.ctl.gen e) := by
  intro hclosed
  obtain ⟨k, a, -, hk, hnone⟩ := open_record ho
  obtain ⟨-, -, name, hq, -⟩ := hw.opened ho
  have hname : name ≠ "" := fun he => hw.named (he ▸ List.mem_of_getElem? hq)
  let ready := { w with ctl := { w.ctl with settleId := none } }
  obtain ⟨u, hopen, hmoves⟩ := moves_opened (P := fun _ => True) (Q := fun _ _ => True) (w := ready)
    ha hq hname e
  have hready : Sealed k a u :=
    calms_keep (fun _ _ hu hc => hc.sealed hu) hopen (sealed_openAttempt (w := ready) hk name e.now)
  have hsealed : Sealed k a (tryCurrentServer ready e) :=
    moves_keep (fun _ _ hu hm => hm.sealed hu) hmoves hready
  have hsettle : onSettle w w.ctl.gen e = tryCurrentServer ready e := if_pos (by simp [ha])
  rw [hsettle] at hclosed
  obtain ⟨hrecord, hother⟩ := hsealed
  rw [hnone] at hother
  have hfinished := (hclosed.closed k a hrecord (hother.resolve_left Bool.false_ne_true)).1
  rw [hnone] at hfinished
  cases hfinished

theorem triesClosed_of_closedRecords (hw : Kept w) {a : MainWindow.Action} (ht : step w a = some t)
    (hclosed : ClosedRecords t) : TriesClosed w a := by
  cases a with
  | fire id after e =>
      intro source gen hs hc ha hgen
      simp only [step, hs, Option.map_some, Option.some.injEq] at ht
      subst ht hgen
      by_contra ho
      refine replaced_onSettle (w := w.pass after)
        ⟨⟨hw.named, hw.newest, hw.opened, hw.preparing⟩, hw.closed, hw.settled⟩ ha
        (by simpa using ho) e.attempt ?_
      simp only [fire, hc] at hclosed
      exact ⟨hclosed.closed, hclosed.finished, hclosed.summed⟩
  | backend | load | filter | select | autoReconnect | fastest | cancelCascade | connectClick
  | speedTestClick | sortClick | speedTestDone | event => trivial

theorem initial_kept : Kept initial where
  toSteady := initial_steady
  closed k a h := by cases h
  settled k a h := by cases h

/-- The records are closed throughout a run exactly when no candidate of it is tried
again, after a disconnect, while its attempt is open. -/
theorem records_closed_iff (actions : List MainWindow.Action) :
    AllStates step ClosedRecords initial actions ↔ AllSteps step TriesClosed initial actions :=
  allStates_iff_allSteps (I := Kept) (fun _ h => h.closedRecords)
    (fun _ _ _ h ht hg => kept_step h hg ht) (fun _ _ _ h ht hc => triesClosed_of_closedRecords h ht hc)
    actions initial_kept

def triedTwice : List MainWindow.Action :=
  [.backend (some .networkManager), .load ["a.ovpn", "b.ovpn"], .speedTestClick,
    .speedTestDone 0 [("a.ovpn", none)] {} {}, .fastest 0 {} { attempt := { status := .answers true } },
    .fire 3 second {}, .event 0 (.bool true) none {}]

theorem triedTwice_records :
    (run step initial triedTwice).map
        (fun t => (t.ctl.active, t.ctl.attempts.map ConnectionAttempt.result, attemptSummary t.ctl)) =
      some (false, [.pending, .success], { candidates := 2, attempts := 2, success := 1 }) := by
  decide

theorem record_left_pending : ¬ ∀ actions, AllStates step ClosedRecords initial actions := by
  intro h
  obtain ⟨t, ht, he⟩ := Option.map_eq_some_iff.mp triedTwice_records
  simp only [Prod.mk.injEq] at he
  obtain ⟨ha, -, hsummary⟩ := he
  have hsum := ((h triedTwice).last ht).summed ha
  rw [hsummary] at hsum
  revert hsum
  decide

end EovpnPro.AttemptRecords
