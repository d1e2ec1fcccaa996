import EovpnPro.CascadeLedger
import EovpnPro.Runs

namespace EovpnPro.CandidateFate

open AutoConnect Events Sources AppState WindowEvents CascadeController MainWindow
open AttemptLedger CascadeLedger Runs

variable {w : World}

inductive Fate
  | running
  | failed
  | decided
  deriving DecidableEq, Repr

def Fate.fail (fate : Fate) (up : Bool) : Fate :=
  match fate with
  | running => if up then decided else failed
  | failed => failed
  | decided => decided

def Fate.deliver (manager : Option Backend) (fate : Fate) (d : Delivery × DropEnv) : Fate :=
  let event := normalizeConnectionEvent d.1.result d.1.error
  if event.kind = .connected then decided
  else if terminal event.kind && !isGenericFailure event then fate.fail (dropUp manager d.2)
  else fate

def expiresAtOnce (latencies : Latencies) (filename : String) (e : TryEnv) : Bool :=
  decide (computeAttemptTimeout (latencies.lookup filename).join ≤ e.button) && !e.timeout.busy

def buttonFate (manager : Option Backend) (latencies : Latencies) (filename : String) (e : TryEnv) : Fate :=
  if expiresAtOnce latencies filename e then Fate.running.fail (dropUp manager e.timeout.drop) else .running

/-- The last thing that can fail the attempt does so, and this is how far the
attempt had got before. -/
def lastFailure (manager : Option Backend) (retries : Nat) (fate : Fate) (e : TryEnv) : Option Fate :=
  if e.startWatch.isSome || e.status.error.isSome then some fate
  else if e.status.up then
    if 3 ≤ retries then some fate
    else if e.disconnect.raises.isSome then some (if comesUp e.disconnect then .decided else fate)
    else none
  else if !e.isFile then some fate
  else if e.connect.raises.isSome then some (e.connect.events.foldl (Fate.deliver manager) fate)
  else none

/-- While a candidate is started the backend does not make it fail twice. -/
def FailsOnce (manager : Option Backend) (latencies : Latencies) (retries : Nat) (filename : String)
    (e : TryEnv) : Prop :=
  manager.isSome = true →
    lastFailure manager retries (buttonFate manager latencies filename e) e ≠ some .failed

/-- The states between two dispatches: the candidate is being attempted
whenever the controller is connecting. -/
structure Good (l : Ledger) : Prop extends Sound l where
  connecting : l.active = true → l.phase = .connecting → l.attempting = true

structure KeptIff (l : Ledger) (guard : Prop) : Prop where
  keep : guard → Good l
  broken : AdvancesOnce l → guard

theorem KeptIff.of_good {l : Ledger} {guard : Prop} (h : Good l) (hg : guard) : KeptIff l guard :=
  ⟨fun _ => h, fun _ => hg⟩

theorem good_of_inactive {l : Ledger} (h : Sound l) (ha : l.active = false) : Good l :=
  ⟨h, fun ht => absurd (ha.symm.trans ht) Bool.false_ne_true⟩

def Holds (l : Ledger) : Fate → Prop
  | .running => Sound l ∧ l.attempting = true
  | .failed => Sound l ∧ l.active = true ∧ l.attempting = false ∧ l.phase ≠ .connecting
  | .decided => Sound l ∧ l.active = false

theorem Holds.good {l : Ledger} {fate : Fate} (h : Holds l fate) : Good l := by
  cases fate with
  | running => exact ⟨h.1, fun _ _ => h.2⟩
  | failed => exact ⟨h.1, fun _ hp => absurd hp h.2.2.2⟩
  | decided => exact good_of_inactive h.1 h.2

theorem holds_giveUp {l : Ledger} (h : Sound l) (ha : l.attempting = true) (up : Bool) :
    Holds (if up then l.giveUp.finish .succeeded else l.giveUp) (Fate.running.fail up) := by
  cases up with
  | true => exact ⟨(h.giveUp ha).finish _, rfl⟩
  | false =>
      obtain ⟨name, hn, hc⟩ := h.at_index ha
      have hne : name ≠ "" := fun he => h.named (he ▸ List.mem_of_getElem? hn)
      exact ⟨h.giveUp ha, h.running ha, by simp [Ledger.giveUp, hc, hne], fun hp =>
        CascadePhase.noConfusion hp⟩

theorem advance_holds {fate : Fate} (h : Holds (ledger w) fate) (hf : fate ≠ .failed) (e : DropEnv)
    (reason : AttemptResult) (code message : Option String) :
    Holds (ledger (advance e w reason code message)) (fate.fail (dropUp w.win.manager e)) := by
  cases fate with
  | running =>
      rw [ledger_advance (h.1.running h.2)]
      exact holds_giveUp h.1 h.2 _
  | failed => exact absurd rfl hf
  | decided =>
      rw [advance_inactive h.2]
      exact h

theorem advance_unattempted (h : Sound (ledger w)) (ha : w.ctl.active = true) (ho : attemptOpen w.ctl = false)
    (e : DropEnv) (reason : AttemptResult) (code message : Option String) :
    ¬ AdvancesOnce (ledger (advance e w reason code message)) := by
  intro hA
  have hg := h.not_attempted_giveUp ho
  have hA := hA.attempted
  rw [ledger_advance ha] at hA
  split_ifs at hA with hu
  · exact hg hA
  · exact hg hA

theorem advance_keptIff {fate : Fate} (h : Holds (ledger w) fate) (e : DropEnv) (reason : AttemptResult)
    (code message : Option String) :
    KeptIff (ledger (advance e w reason code message)) (fate ≠ .failed) where
  keep hf := (advance_holds h hf e reason code message).good
  broken hA hf := by
    subst hf
    exact advance_unattempted h.1 h.2.1 h.2.2.1 e reason code message hA

theorem onTimeout_inactive {gen : Nat} (hg : w.ctl.active = false ∨ gen ≠ w.ctl.gen) (e : TimeoutEnv) :
    ledger (onTimeout w gen e) = ledger w := by
  have hc : (!w.ctl.active || decide (gen ≠ w.ctl.gen)) = true := by
    rcases hg with hg | hg <;> simp [hg]
  simp only [onTimeout, hc, if_true]
  rfl

theorem onTimeout_busy (gen : Nat) {e : TimeoutEnv} (hb : e.busy = true) :
    ledger (onTimeout w gen e) = ledger w := by
  simp only [onTimeout]
  simp only [hb, if_true]
  split_ifs <;> rfl

theorem onTimeout_expired {gen : Nat} (ha : w.ctl.active = true) (hg : gen = w.ctl.gen) {e : TimeoutEnv}
    (hb : e.busy = false) :
    onTimeout w gen e =
      advance e.drop { w with ctl := { w.ctl with timeoutId := none } } .timeout (some "timeout")
        (some (orElse w.ctl.pendingFailureMessage "Handshake timeout expired.")) := by
  have hc : (!w.ctl.active || decide (gen ≠ w.ctl.gen)) = false := by simp [ha, hg]
  simp only [onTimeout, hc, hb, Bool.false_eq_true, if_false]

def Expires (w : World) (gen : Nat) (e : TimeoutEnv) : Prop :=
  w.ctl.active = true ∧ gen = w.ctl.gen ∧ e.busy = false

theorem onTimeout_quiet {gen : Nat} {e : TimeoutEnv} (hx : ¬ Expires w gen e) :
    ledger (onTimeout w gen e) = ledger w := by
  cases ha : w.ctl.active with
  | false => exact onTimeout_inactive (.inl ha) e
  | true =>
      cases hb : e.busy with
      | true => exact onTimeout_busy gen hb
      | false => exact onTimeout_inactive (.inr fun hg => hx ⟨ha, hg, hb⟩) e

theorem onTimeout_keptIff (h : Good (ledger w)) (gen : Nat) (e : TimeoutEnv) :
    KeptIff (ledger (onTimeout w gen e)) (Expires w gen e → attemptOpen w.ctl = true) := by
  by_cases hx : Expires w gen e
  · obtain ⟨ha, hg, hb⟩ := hx
    rw [onTimeout_expired ha hg hb]
    cases ho : attemptOpen w.ctl with
    | true =>
        have hh : Holds (ledger w) .running := ⟨h.toSound, ho⟩
        exact .of_good (advance_holds (w := { w with ctl := { w.ctl with timeoutId := none } }) hh
          (fun hf => Fate.noConfusion hf) e.drop _ _ _).good fun _ => rfl
    | false =>
        refine ⟨fun hq => absurd (hq ⟨ha, hg, hb⟩) Bool.false_ne_true, fun hA => ?_⟩
        exact absurd hA (advance_unattempted (w := { w with ctl := { w.ctl with timeoutId := none } })
          h.toSound ha ho e.drop _ _ _)
  · rw [onTimeout_quiet hx]
    exact .of_good h fun hq => absurd hq hx

theorem updateConnectButtonTimer_idle {dt : Time} {e : TimeoutEnv}
    (h : w.ctl.active = false ∨ w.ctl.current.isNone = true ∨ ¬ w.ctl.deadline ≤ w.clock + dt) :
    ledger (updateConnectButtonTimer w dt e) = ledger w := by
  unfold updateConnectButtonTimer
  split_ifs with hc
  · rfl
  · simp only [Bool.or_eq_true, Bool.not_eq_true', not_or, Bool.not_eq_false] at hc
    have hd : ¬ w.ctl.deadline ≤ w.clock + dt := by
      rcases h with h | h | h
      · exact absurd (h.symm.trans hc.1) Bool.false_ne_true
      · exact absurd h hc.2
      · exact h
    exact (congrArg ledger (if_neg hd)).trans (ledger_pass w dt)

theorem updateConnectButtonTimer_due {dt : Time} {e : TimeoutEnv} (ha : w.ctl.active = true)
    (hc : w.ctl.current.isSome = true) (hd : w.ctl.deadline ≤ w.clock + dt) :
    updateConnectButtonTimer w dt e = onTimeout (w.pass dt) w.ctl.gen e := by
  have hn : (!w.ctl.active || w.ctl.current.isNone) = false := by simp [ha, hc]
  simp only [updateConnectButtonTimer, hn, Bool.false_eq_true, if_false]
  exact if_pos hd

def lastReading (w : World) (e : TickEnv) : Time :=
  w.clock + e.now + if w.ctl.current.isSome then e.button else 0

def TickExpires (w : World) (gen : Nat) (e : TickEnv) : Prop :=
  e.busy = false ∧ w.ctl.deadline ≤ lastReading w e ∧ Expires w gen e.timeout

theorem onTick_idle {gen : Nat} {e : TickEnv}
    (h : w.ctl.active = false ∨ gen ≠ w.ctl.gen ∨ e.busy = true) : ledger (onTick w gen e).1 = ledger w := by
  simp only [onTick]
  split_ifs with hc hb
  · rfl
  · rfl
  all_goals
    simp only [Bool.or_eq_true, Bool.not_eq_true', decide_eq_true_eq, not_or, Bool.not_eq_false,
      not_not] at hc
    rcases h with h | h | h
    · exact absurd (h.symm.trans hc.1) Bool.false_ne_true
    · exact absurd hc.2 h
    · exact absurd h hb

theorem onTick_awake {gen : Nat} {e : TickEnv} (ha : w.ctl.active = true) (hg : gen = w.ctl.gen)
    (hb : e.busy = false) :
    (onTick w gen e).1 =
      if w.ctl.deadline ≤ w.clock + e.now then onTimeout (w.pass e.now) gen e.timeout
      else updateConnectButtonTimer (updateBanner (w.pass e.now)) e.button e.timeout := by
  have hn : (!w.ctl.active || decide (gen ≠ w.ctl.gen)) = false := by simp [ha, hg]
  simp only [onTick, hn, hb, Bool.false_eq_true, if_false]
  exact apply_ite Prod.fst _ _ _

theorem onTick_keptIff (h : Good (ledger w)) (gen : Nat) (e : TickEnv) :
    KeptIff (ledger (onTick w gen e).1) (TickExpires w gen e → attemptOpen w.ctl = true) := by
  by_cases hi : w.ctl.active = false ∨ gen ≠ w.ctl.gen ∨ e.busy = true
  · rw [onTick_idle hi]
    refine .of_good h fun hx => ?_
    obtain ⟨hb, -, ha, hg, -⟩ := hx
    rcases hi with hi | hi | hi
    · exact absurd (hi.symm.trans ha) Bool.false_ne_true
    · exact absurd hg hi
    · exact absurd (hb.symm.trans hi) Bool.false_ne_true
  · simp only [not_or, Bool.not_eq_false, not_not, Bool.not_eq_true] at hi
    obtain ⟨ha, rfl, hb⟩ := hi
    rw [onTick_awake ha rfl hb]
    split_ifs with hd
    · have hk := onTimeout_keptIff (w := w.pass e.now) h w.ctl.gen e.timeout
      refine ⟨fun hq => hk.keep fun hx => hq ⟨hb, ?_, hx⟩, fun hA hx => hk.broken hA hx.2.2⟩
      exact le_trans hd (Nat.le_add_right _ _)
    · by_cases hl : w.ctl.current.isSome = true ∧ w.ctl.deadline ≤ w.clock + e.now + e.button
      · rw [updateConnectButtonTimer_due (by simpa using ha) (by simpa using hl.1) (by simpa using hl.2)]
        have hg : Good (ledger ((updateBanner (w.pass e.now)).pass e.button)) := by simpa using h
        have hk := onTimeout_keptIff hg w.ctl.gen e.timeout
        have hx : Expires ((updateBanner (w.pass e.now)).pass e.button) w.ctl.gen e.timeout ↔
            Expires w w.ctl.gen e.timeout := by simp [Expires]
        simp only [World.pass_ctl, updateBanner_ctl] at hk ⊢
        rw [hx] at hk
        refine ⟨fun hq => hk.keep fun hx => hq ⟨hb, ?_, hx⟩, fun hA hx => hk.broken hA hx.2.2⟩
        simpa [lastReading, hl.1] using hl.2
      · rw [updateConnectButtonTimer_idle]
        · refine .of_good (by simpa using h) fun hx => absurd hx.2.1 fun hr => ?_
          by_cases hc : w.ctl.current.isSome = true
          · exact hl ⟨hc, by simpa [lastReading, hc] using hr⟩
          · exact hd (by simpa [lastReading, hc] using hr)
        · simp only [updateBanner_ctl, updateBanner_clock, World.pass_ctl, World.pass_clock]
          by_cases hc : w.ctl.current.isSome = true
          · exact .inr (.inr fun hr => hl ⟨hc, hr⟩)
          · exact .inr (.inl (by simpa using hc))

theorem onConnectionEvent_advance (ha : w.ctl.active = true) (hp : w.ctl.phase = .connecting)
    {result : Result} {error : Option String}
    (ht : (terminal (normalizeConnectionEvent result error).kind &&
      !isGenericFailure (normalizeConnectionEvent result error)) = true) (next : Advance) :
    onConnectionEvent next w result error =
      next w (failureReason (normalizeConnectionEvent result error))
        (some (failureReason (normalizeConnectionEvent result error)).text)
        (normalizeConnectionEvent result error).error := by
  obtain ⟨ht, hg⟩ := Bool.and_eq_true_iff.mp ht
  have hs : ¬ (w.ctl.phase = .settling ∧ w.ctl.expectDisconnect = true) := by simp [hp]
  rw [onConnectionEvent_terminal ha ht, terminalResponse, if_neg hs, if_pos hp,
    if_neg (by simpa using hg)]

theorem onConnectionEvent_ignored (ha : w.ctl.active = true) {result : Result} {error : Option String}
    (hu : isUp result error = false)
    (ht : (terminal (normalizeConnectionEvent result error).kind &&
      !isGenericFailure (normalizeConnectionEvent result error)) = false) (next : Advance) :
    ledger (onConnectionEvent next w result error) = ledger w := by
  cases hk : terminal (normalizeConnectionEvent result error).kind with
  | false => rw [onConnectionEvent_other ha (of_decide_eq_false hu) hk]
  | true =>
      have hg : isGenericFailure (normalizeConnectionEvent result error) = true := by simpa [hk] using ht
      rw [onConnectionEvent_terminal ha hk, terminalResponse]
      split_ifs
      · rfl
      · exact ledger_updateBanner _
      · rfl

structure Trying (w : World) (manager : Option Backend) (retries : Nat) (fate : Fate) : Prop where
  holds : Holds (ledger w) fate
  connecting : fate = .running → w.ctl.phase = .connecting
  manager : w.win.manager = manager
  retries : w.ctl.disconnectRetries = retries

theorem Trying.of_ledger_eq {v : World} {manager : Option Backend} {retries : Nat} {fate : Fate}
    (h : Trying w manager retries fate) (hv : ledger v = ledger w) : Trying v manager retries fate where
  holds := hv ▸ h.holds
  connecting hf := (congrArg Ledger.phase hv).trans (h.connecting hf)
  manager := (congrArg Ledger.manager hv).trans h.manager
  retries := (congrArg Ledger.disconnectRetries hv).trans h.retries

theorem Trying.decided {v : World} {manager : Option Backend} {retries : Nat} {fate : Fate}
    (h : Trying w manager retries fate) (hv : ledger v = (ledger w).finish .succeeded) :
    Trying v manager retries .decided where
  holds := hv ▸ ⟨h.holds.good.toSound.finish _, rfl⟩
  connecting hf := Fate.noConfusion hf
  manager := (congrArg Ledger.manager hv).trans h.manager
  retries := (congrArg Ledger.disconnectRetries hv).trans h.retries

theorem Trying.advance {manager : Option Backend} {retries : Nat} {fate : Fate}
    (h : Trying w manager retries fate) (hf : fate ≠ .failed) (e : DropEnv) (reason : AttemptResult)
    (code message : Option String) :
    Trying (advance e w reason code message) manager retries (fate.fail (dropUp manager e)) := by
  have hl : (ledger (CascadeController.advance e w reason code message)).manager = (ledger w).manager ∧
      (ledger (CascadeController.advance e w reason code message)).disconnectRetries =
        (ledger w).disconnectRetries := by
    cases ha : w.ctl.active with
    | false => rw [advance_inactive ha]; exact ⟨rfl, rfl⟩
    | true => rw [ledger_advance ha]; split_ifs <;> exact ⟨rfl, rfl⟩
  refine ⟨?_, fun hr => ?_, hl.1.trans h.manager, hl.2.trans h.retries⟩
  · have hh := advance_holds h.holds hf e reason code message
    rwa [h.manager] at hh
  · cases fate with
    | running => cases hd : dropUp manager e <;> simp [Fate.fail, hd] at hr
    | failed => exact absurd rfl hf
    | decided => cases hr

theorem Trying.deliver {manager : Option Backend} {retries : Nat} {fate : Fate}
    (h : Trying w manager retries fate) (d : Delivery × DropEnv) :
    Trying (onConnectionEvent (CascadeController.advance d.2) (w.pass d.1.after) d.1.result d.1.error)
      manager retries (fate.deliver manager d) := by
  have hw : Trying (w.pass d.1.after) manager retries fate := h.of_ledger_eq (ledger_pass w _)
  generalize w.pass d.1.after = v at hw ⊢
  by_cases ho : fate = .decided
  · subst ho
    have hd : Fate.decided.deliver manager d = .decided := by
      simp only [Fate.deliver, Fate.fail]
      split_ifs <;> rfl
    rw [hd]
    exact hw.of_ledger_eq (ledger_onConnectionEvent_inactive _ hw.holds.2 _ _)
  · have ha : v.ctl.active = true := by
      cases fate with
      | running => exact hw.holds.1.running hw.holds.2
      | failed => exact hw.holds.2.1
      | decided => exact absurd rfl ho
    cases hu : isUp d.1.result d.1.error with
    | true =>
        have hd : fate.deliver manager d = .decided := if_pos (of_decide_eq_true hu)
        rw [hd]
        exact hw.decided (ledger_onConnectionEvent_up _ ha hu)
    | false =>
        have hn := of_decide_eq_false hu
        cases ht : terminal (normalizeConnectionEvent d.1.result d.1.error).kind &&
            !isGenericFailure (normalizeConnectionEvent d.1.result d.1.error) with
        | false =>
            have hd : fate.deliver manager d = fate := by simp only [Fate.deliver, if_neg hn, ht]; rfl
            rw [hd]
            exact hw.of_ledger_eq (onConnectionEvent_ignored ha hu ht _)
        | true =>
            have hd : fate.deliver manager d = fate.fail (dropUp manager d.2) := by
              simp only [Fate.deliver, if_neg hn, ht, if_true]
            rw [hd]
            cases fate with
            | running =>
                rw [onConnectionEvent_advance ha (hw.connecting rfl) ht]
                exact hw.advance (fun hf => Fate.noConfusion hf) _ _ _ _
            | failed => exact hw.of_ledger_eq (ledger_onConnectionEvent_settling _ ha hw.holds.2.2.2 hu)
            | decided => exact absurd rfl ho

theorem Trying.deliveries {manager : Option Backend} {retries : Nat} {fate : Fate}
    (h : Trying w manager retries fate) (events : List (Delivery × DropEnv)) :
    Trying (events.foldl
        (fun w d => onConnectionEvent (CascadeController.advance d.2) (w.pass d.1.after) d.1.result
          d.1.error) w)
      manager retries (events.foldl (Fate.deliver manager) fate) := by
  induction events generalizing w fate with
  | nil => exact h
  | cons d events ih => exact ih (h.deliver d)

theorem onConnectionEvent_good (h : Good (ledger w)) (e : DropEnv) (result : Result) (error : Option String) :
    Good (ledger (onConnectionEvent (advance e) w result error)) := by
  cases ha : w.ctl.active with
  | false => rwa [ledger_onConnectionEvent_inactive _ ha]
  | true =>
      cases hu : isUp result error with
      | true =>
          rw [ledger_onConnectionEvent_up _ ha hu]
          exact good_of_inactive (h.toSound.finish _) rfl
      | false =>
          by_cases hp : w.ctl.phase = .connecting
          · have ht : Trying w w.win.manager w.ctl.disconnectRetries .running :=
              ⟨⟨h.toSound, h.connecting ha hp⟩, fun _ => hp, rfl, rfl⟩
            exact (ht.deliver (⟨0, result, error⟩, e)).holds.good
          · rwa [ledger_onConnectionEvent_settling _ ha hp hu]

theorem Holds.last {fate : Fate} (h : Holds (ledger w) fate) (e : DropEnv) (reason : AttemptResult)
    (code message : Option String) :
    KeptIff (ledger (advance e w reason code message)) (some fate ≠ some .failed) := by
  have hk := advance_keptIff h e reason code message
  exact ⟨fun hf => hk.keep fun hq => hf (congrArg some hq), fun hA hf => hk.broken hA (Option.some.inj hf)⟩

theorem Holds.quiet {fate : Fate} (h : Holds (ledger w) fate) :
    KeptIff (ledger w) (none ≠ some Fate.failed) :=
  .of_good h.good (Option.some_ne_none _).symm

theorem Holds.settle {l : Ledger} {fate : Fate} (h : Holds l fate) : Holds l.settle fate := by
  cases fate with
  | running => exact ⟨h.1.settle, h.2⟩
  | failed => exact ⟨h.1.settle, h.2.1, h.2.2.1, fun hp => CascadePhase.noConfusion hp⟩
  | decided => exact ⟨h.1.settle, h.2⟩

theorem Holds.setRetries {l : Ledger} {fate : Fate} (h : Holds l fate) (retries : Nat) :
    Holds (l.setRetries retries) fate := by
  cases fate with
  | running | failed | decided => exact ⟨h.1.setRetries retries, h.2⟩

theorem Holds.callDisconnect {fate : Fate} (h : Holds (ledger w) fate) (hp : w.ctl.phase = .settling)
    (reply : Reply Delivery) :
    Holds (ledger (callDisconnect w reply)) (if comesUp reply then .decided else fate) := by
  cases ha : w.ctl.active with
  | false =>
      rw [ledger_callDisconnect_inactive ha]
      split_ifs
      · exact ⟨h.good.toSound, ha⟩
      · exact h
  | true =>
      rw [ledger_callDisconnect_settling ha (fun hc => CascadePhase.noConfusion (hp.symm.trans hc))]
      split_ifs
      · exact ⟨h.good.toSound.finish _, rfl⟩
      · exact h

theorem retryDisconnect_keptIff {fate : Fate} (h : Holds (ledger w) fate) (e : TryEnv) :
    KeptIff (ledger (retryDisconnect w e))
      ((if 3 ≤ w.ctl.disconnectRetries then some fate
        else if e.disconnect.raises.isSome then some (if comesUp e.disconnect then .decided else fate)
        else none) ≠ some .failed) := by
  have hr : Holds (ledger (setDisconnectRetries w (w.ctl.disconnectRetries + 1))) fate := h.setRetries _
  have hc : (setDisconnectRetries w (w.ctl.disconnectRetries + 1)).ctl.disconnectRetries > 3 ↔
      3 ≤ w.ctl.disconnectRetries := Nat.succ_lt_succ_iff
  simp only [retryDisconnect, hc]
  generalize setDisconnectRetries w (w.ctl.disconnectRetries + 1) = v at hr
  have hw := Holds.callDisconnect (w := awaitDisconnect v) hr.settle rfl e.disconnect
  generalize (if comesUp e.disconnect = true then Fate.decided else fate) = after at hw ⊢
  split_ifs with h3 hd
  · exact hr.last _ _ _ _
  · obtain ⟨message, hm⟩ := Option.isSome_iff_exists.mp hd
    simp only [hm]
    exact hw.last _ _ _ _
  · have hm : e.disconnect.raises = none := by simpa using hd
    simp only [hm]
    exact hw.quiet

theorem connectCandidate_keptIff {manager : Option Backend} {fate : Fate} {retries : Nat}
    (h : Trying w manager retries fate) (position : Nat) (filename : String) (e : TryEnv) :
    KeptIff (ledger (connectCandidate w position filename e))
      ((if !e.isFile then some fate
        else if e.connect.raises.isSome then some (e.connect.events.foldl (Fate.deliver manager) fate)
        else none) ≠ some .failed) := by
  have hr : Trying (setDisconnectRetries w 0) manager 0 fate :=
    ⟨h.holds.setRetries 0, h.connecting, h.manager, rfl⟩
  simp only [connectCandidate]
  generalize setDisconnectRetries w 0 = v at hr
  have hv : Trying (callConnect v position filename e.connect) manager 0
      (e.connect.events.foldl (Fate.deliver manager) fate) :=
    Trying.deliveries (w := v.record (.connect (some position) filename))
      (hr.of_ledger_eq (ledger_record _ rfl v)) e.connect.events
  generalize e.connect.events.foldl (Fate.deliver manager) fate = after at hv ⊢
  split_ifs with hf hd
  · exact hr.holds.last _ _ _ _
  · obtain ⟨message, hm⟩ := Option.isSome_iff_exists.mp hd
    simp only [hm]
    exact hv.holds.last _ _ _ _
  · have hm : e.connect.raises = none := by simpa using hd
    simp only [hm]
    exact hv.holds.quiet

theorem startCandidate_keptIff {manager : Option Backend} {fate : Fate} {retries : Nat}
    (h : Trying w manager retries fate) (position : Nat) (filename : String) (e : TryEnv) :
    KeptIff (ledger (startCandidate w position filename e))
      (lastFailure manager retries fate e ≠ some .failed) := by
  have hp : Trying (w.record (.polled e.status)) manager retries fate := h.of_ledger_eq (ledger_polled w _)
  simp only [startCandidate, lastFailure]
  cases hs : e.startWatch with
  | some message => exact h.holds.last _ _ _ _
  | none =>
      cases he : e.status.error with
      | some message => exact hp.holds.last _ _ _ _
      | none =>
          simp only [Option.isSome_none, Bool.or_self, Bool.false_eq_true, if_false]
          cases hu : e.status.up with
          | true => simpa only [h.retries, World.record_ctl, if_true] using retryDisconnect_keptIff hp.holds e
          | false => exact connectCandidate_keptIff hp position filename e

theorem openAttempt_deadline (w : World) (filename : String) (dt button : Time) :
    (openAttempt w filename dt).ctl.deadline ≤ (openAttempt w filename dt).clock + button ↔
      computeAttemptTimeout (w.win.latencies.lookup filename).join ≤ button :=
  Nat.add_le_add_iff_left

theorem openAttempt_trying (h : Sound (ledger w)) (ha : w.ctl.active = true) {filename : String}
    (hn : w.ctl.queue[w.ctl.index]? = some filename) (e : TryEnv) :
    Trying (updateConnectButtonTimer (openAttempt w filename e.now) e.button e.timeout) w.win.manager
      w.ctl.disconnectRetries (buttonFate w.win.manager w.win.latencies filename e) := by
  have ho : Trying (openAttempt w filename e.now) w.win.manager w.ctl.disconnectRetries .running :=
    ⟨(ledger_openAttempt w filename e.now).symm ▸ ⟨h.attempt ha hn, rfl⟩, fun _ => rfl, rfl, rfl⟩
  have hd := openAttempt_deadline w filename e.now e.button
  have hc : (openAttempt w filename e.now).ctl.current.isSome = true := rfl
  have ha : (openAttempt w filename e.now).ctl.active = true := ha
  generalize openAttempt w filename e.now = v at ho hd hc ha ⊢
  unfold buttonFate expiresAtOnce
  have hd : decide (computeAttemptTimeout (w.win.latencies.lookup filename).join ≤ e.button) =
      decide (v.ctl.deadline ≤ v.clock + e.button) := decide_eq_decide.mpr hd.symm
  rw [hd]
  by_cases hx : v.ctl.deadline ≤ v.clock + e.button
  · rw [updateConnectButtonTimer_due ha hc hx]
    cases hb : e.timeout.busy with
    | true =>
        simp only [Bool.not_true, Bool.and_false, Bool.false_eq_true, if_false]
        exact ho.of_ledger_eq (onTimeout_busy (w := v.pass e.button) _ hb)
    | false =>
        simp only [hx, decide_true, Bool.not_false, Bool.and_self, if_true]
        rw [onTimeout_expired (w := v.pass e.button) ha (show v.ctl.gen = v.ctl.gen from rfl) hb]
        have hv : Trying { v.pass e.button with ctl := { (v.pass e.button).ctl with timeoutId := none } }
            w.win.manager w.ctl.disconnectRetries .running := ho.of_ledger_eq rfl
        exact hv.advance (fun hf => Fate.noConfusion hf) _ _ _ _
  · simp only [hx, decide_false, Bool.false_and, Bool.false_eq_true, if_false]
    exact ho.of_ledger_eq (updateConnectButtonTimer_idle (.inr (.inr hx)))

theorem prepareCandidate_trying (h : Sound (ledger w)) (ha : w.ctl.active = true) {filename : String}
    (hn : w.ctl.queue[w.ctl.index]? = some filename) (e : TryEnv) :
    Trying (prepareCandidate w filename e) w.win.manager w.ctl.disconnectRetries
      (buttonFate w.win.manager w.win.latencies filename e) := by
  apply (openAttempt_trying h ha hn e).of_ledger_eq
  simp only [prepareCandidate, ledger_armTimeoutAndTicks, ledger_updateBanner, ledger_selectServerByName]
  rfl

def StartsSoundly (l : Ledger) (e : TryEnv) : Prop :=
  l.active = true → ∀ filename, l.queue[l.index]? = some filename →
    FailsOnce l.manager l.latencies l.disconnectRetries filename e

theorem tryCurrentServer_keptIff (h : Sound (ledger w)) (e : TryEnv) :
    KeptIff (ledger (tryCurrentServer w e)) (StartsSoundly (ledger w) e) := by
  cases ha : w.ctl.active with
  | false =>
      simp only [tryCurrentServer, ha, Bool.not_false, if_true]
      exact .of_good (good_of_inactive h ha) fun ht => absurd (ha.symm.trans ht) Bool.false_ne_true
  | true =>
      have hi : (!w.ctl.active) = false := by rw [ha]; rfl
      cases hn : w.ctl.queue[w.ctl.index]? with
      | none =>
          simp only [tryCurrentServer, hi, Bool.false_eq_true, if_false, hn, ledger_finishExhausted]
          exact .of_good (good_of_inactive (h.finish _) rfl) fun _ filename hf =>
            absurd (hn.symm.trans hf) (Option.some_ne_none _).symm
      | some filename =>
          have ht := prepareCandidate_trying h ha hn e
          have hg : StartsSoundly (ledger w) e ↔
              FailsOnce w.win.manager w.win.latencies w.ctl.disconnectRetries filename e :=
            ⟨fun hs => hs ha filename hn, fun hf _ name hm => Option.some.inj (hn.symm.trans hm) ▸ hf⟩
          have hm := ht.manager
          simp only [tryCurrentServer, hi, Bool.false_eq_true, if_false, hn, hg, FailsOnce]
          generalize prepareCandidate w filename e = v at ht hm ⊢
          rw [← hm]
          cases hv : v.win.manager with
          | none =>
              simp only [Option.isNone_none, if_true, ledger_finishExhausted]
              exact .of_good (good_of_inactive (ht.holds.good.toSound.finish _) rfl) fun hs =>
                Bool.noConfusion hs
          | some backend =>
              rw [← hm, hv] at ht
              have hk := startCandidate_keptIff ht w.ctl.index filename e
              exact ⟨fun hs => hk.keep (hs rfl), fun hA _ => hk.broken hA⟩

end EovpnPro.CandidateFate
