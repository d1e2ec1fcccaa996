import EovpnPro.CascadeLedger
import EovpnPro.Runs
import EovpnPro.Traces

namespace EovpnPro.CascadeTeardown

open AutoConnect Events Sources AppState WindowEvents CascadeController MainWindow
open AttemptLedger CascadeLedger Runs Traces

variable {w : World}

def underway : List Act → Bool
  | [] => false
  | .begin :: _ => true
  | .ended _ :: _ => false
  | _ :: older => underway older

def live : List Act → Bool
  | [] => false
  | .connect (some _) _ :: older => underway older
  | .disconnect :: _ => false
  | .ended _ :: _ => false
  | _ :: older => live older

/-- A handshake of the run since which `status()` has not once been true. -/
def unanswered : List Act → Bool
  | [] => false
  | .connect (some _) _ :: older => underway older
  | .polled answer :: older => !answer.up && unanswered older
  | .ended _ :: _ => false
  | _ :: older => unanswered older

def abandons : Act → Bool
  | .connect (some _) _ => true
  | .ended phase => decide (phase ≠ .succeeded)
  | _ => false

/-- No handshake is left behind. -/
def TornDown : List Act → Prop := Always fun older act => abandons act = true → live older = false

/-- The backend calls a tunnel established before the cascade leaves it. -/
def Answered : List Act → Prop := Always fun older act => abandons act = true → unanswered older = false

def Agree : List Act → Prop := Always fun older act => abandons act = true → live older = unanswered older

instance (trace : List Act) : Decidable (TornDown trace) := inferInstanceAs (Decidable (Always _ trace))

theorem tornDown_iff_answered {trace : List Act} (h : Agree trace) : TornDown trace ↔ Answered trace :=
  always_congr (h.mono fun _ _ he => forall_congr' fun ha => by rw [he ha])

def neutral : Act → Bool
  | .begin | .connect (some _) _ | .disconnect | .polled _ | .ended _ => false
  | _ => true

theorem neutral_spec {act : Act} (h : neutral act = true) (trace : List Act) :
    live (act :: trace) = live trace ∧ unanswered (act :: trace) = unanswered trace ∧
      underway (act :: trace) = underway trace ∧ abandons act = false := by
  cases act with
  | connect position config =>
      cases position with
      | none => exact ⟨rfl, rfl, rfl, rfl⟩
      | some k => exact Bool.noConfusion h
  | begin | disconnect | polled | ended => exact Bool.noConfusion h
  | attempt | advance | cancelOperation | up | scheduled => exact ⟨rfl, rfl, rfl, rfl⟩

theorem underway_of_live {trace : List Act} (h : live trace = true) : underway trace = true := by
  induction trace with
  | nil => exact h
  | cons act older ih =>
      cases act with
      | begin => rfl
      | connect position config =>
          cases position with
          | none => exact ih h
          | some k => exact h
      | disconnect | ended => exact Bool.noConfusion h
      | attempt | advance | polled | cancelOperation | up | scheduled => exact ih h

structure Even (trace : List Act) : Prop where
  agree : Agree trace
  same : live trace = unanswered trace

theorem Even.neutral {trace : List Act} (h : Even trace) {act : Act} (ha : neutral act = true) :
    Even (act :: trace) where
  agree := ⟨fun hb => absurd ((neutral_spec ha trace).2.2.2.symm.trans hb) Bool.false_ne_true, h.agree⟩
  same := by rw [(neutral_spec ha trace).1, (neutral_spec ha trace).2.1, h.same]

theorem Even.begin {trace : List Act} (h : Even trace) : Even (.begin :: trace) :=
  ⟨⟨fun hb => Bool.noConfusion hb, h.agree⟩, h.same⟩

theorem Even.ended {trace : List Act} (h : Even trace) (phase : CascadePhase) :
    Even (.ended phase :: trace) :=
  ⟨⟨fun _ => h.same, h.agree⟩, rfl⟩

theorem Even.connect {trace : List Act} (h : Even trace) (k : Nat) (config : String) :
    Even (.connect (some k) config :: trace) :=
  ⟨⟨fun _ => h.same, h.agree⟩, rfl⟩

theorem Even.polled_down {trace : List Act} (h : Even trace) {answer : Poll} (ha : answer.up = false) :
    Even (.polled answer :: trace) :=
  ⟨⟨fun hb => Bool.noConfusion hb, h.agree⟩, by simp [live, unanswered, ha, h.same]⟩

theorem Even.polled_idle {trace : List Act} (h : Even trace) (hl : live trace = false) (answer : Poll) :
    Even (.polled answer :: trace) :=
  ⟨⟨fun hb => Bool.noConfusion hb, h.agree⟩, by simp [live, unanswered, hl, ← h.same]⟩

theorem Even.disconnect {trace : List Act} (h : Even trace) {answer : Poll} (ha : answer.up = true) :
    Even (.disconnect :: .polled answer :: trace) :=
  ⟨⟨fun hb => Bool.noConfusion hb, fun hb => Bool.noConfusion hb, h.agree⟩, by simp [live, unanswered, ha]⟩

theorem Even.disconnect_idle {trace : List Act} (h : Even trace) (hl : live trace = false) :
    Even (.disconnect :: trace) :=
  ⟨⟨fun hb => Bool.noConfusion hb, h.agree⟩, by simp [live, unanswered, ← h.same, hl]⟩

/-- A state in which a pending handshake is not one that is being tried again,
and a run that is under way is an active one. -/
structure Ready (w : World) : Prop where
  even : Even w.trace
  fresh : live w.trace = true → w.ctl.disconnectRetries = 0
  running : underway w.trace = true → w.ctl.active = true ∧ w.ctl.phase ≠ .preparing

theorem Ready.frame {v : World} (h : Ready w) (ht : v.trace = w.trace) (hl : ledger v = ledger w) :
    Ready v where
  even := ht ▸ h.even
  fresh hv := (congrArg Ledger.disconnectRetries hl).trans (h.fresh (ht ▸ hv))
  running hv :=
    ⟨(congrArg Ledger.active hl).trans (h.running (ht ▸ hv)).1,
      fun hp => (h.running (ht ▸ hv)).2 ((congrArg Ledger.phase hl).symm.trans hp)⟩

theorem Ready.neutral {v : World} (h : Ready w) (act : Act) (ha : neutral act = true)
    (ht : v.trace = act :: w.trace) (hr : v.ctl.disconnectRetries = w.ctl.disconnectRetries)
    (hv : w.ctl.active = true → v.ctl.active = true)
    (hp : w.ctl.phase ≠ .preparing → v.ctl.phase ≠ .preparing) : Ready v := by
  have hl : live v.trace = live w.trace := ht ▸ (neutral_spec ha w.trace).1
  have hu : underway v.trace = underway w.trace := ht ▸ (neutral_spec ha w.trace).2.2.1
  exact ⟨ht ▸ h.even.neutral ha, fun hx => hr.trans (h.fresh (hl ▸ hx)),
    fun hx => ⟨hv (h.running (hu ▸ hx)).1, hp (h.running (hu ▸ hx)).2⟩⟩

theorem Ready.idle_of_inactive (h : Ready w) (ha : w.ctl.active = false) : live w.trace = false := by
  cases hl : live w.trace with
  | false => rfl
  | true => exact absurd (ha.symm.trans (h.running (underway_of_live hl)).1) Bool.false_ne_true

theorem Ready.idle_of_preparing (h : Ready w) (hp : w.ctl.phase = .preparing) : live w.trace = false := by
  cases hl : live w.trace with
  | false => rfl
  | true => exact absurd hp (h.running (underway_of_live hl)).2

theorem Ready.ended (h : Even w.trace) {v : World} {phase : CascadePhase}
    (hv : v.trace = .ended phase :: w.trace) :
    Ready v := by
  refine ⟨hv ▸ h.ended phase, fun hl => ?_, fun hu => ?_⟩
  · rw [hv] at hl; exact Bool.noConfusion hl
  · rw [hv] at hu; exact Bool.noConfusion hu

theorem Ready.handleConnected (h : Ready w) : Ready (handleConnected w) :=
  h.neutral .up rfl rfl rfl id id

theorem Ready.handleDisconnected (h : Ready w) : Ready (handleDisconnected w) := by
  simp only [WindowEvents.handleDisconnected]
  split
  · exact h.neutral .scheduled rfl rfl rfl id id
  · exact ⟨h.even, h.fresh, h.running⟩

theorem Ready.onWindowEvent (h : Ready w) (event : ConnectionEvent) : Ready (onWindowEvent w event) := by
  simp only [WindowEvents.onWindowEvent]
  split
  · exact h.handleDisconnected
  · exact h.handleDisconnected
  · exact h.handleConnected
  all_goals exact h

theorem Ready.terminalResponse (h : Ready w) {next : Advance} (hn : ∀ r c m, Ready (next w r c m))
    (event : ConnectionEvent) : Ready (terminalResponse next w event) := by
  simp only [CascadeController.terminalResponse]
  split_ifs
  · exact ⟨h.even, h.fresh, h.running⟩
  · exact h.frame (updateBanner_trace _) (ledger_updateBanner _)
  · exact hn _ _ _
  · exact h

theorem Ready.onConnectionEvent (h : Ready w) {next : Advance} (hn : ∀ r c m, Ready (next w r c m))
    (result : Result) (error : Option String) : Ready (onConnectionEvent next w result error) := by
  cases ha : w.ctl.active with
  | false => rw [onConnectionEvent_inactive ha]; exact h.onWindowEvent _
  | true =>
      by_cases hk : (normalizeConnectionEvent result error).kind = .connected
      · rw [onConnectionEvent_connected ha hk]
        exact Ready.handleConnected (Ready.ended (w := disarmTimers w false) h.even (finishSucceeded_trace _))
      · cases ht : terminal (normalizeConnectionEvent result error).kind with
        | false => rw [onConnectionEvent_other ha hk ht]; exact h
        | true => rw [onConnectionEvent_terminal ha ht]; exact h.terminalResponse hn _

theorem Ready.deliverQuiet (h : Ready w) (d : Delivery) : Ready (deliverQuiet w d) :=
  Ready.onConnectionEvent (w := w.pass d.after) ⟨h.even, h.fresh, h.running⟩
    (fun _ _ _ => ⟨h.even, h.fresh, h.running⟩) d.result d.error

theorem Ready.deliveries (h : Ready w) (events : List Delivery) :
    Ready (events.foldl CascadeController.deliverQuiet w) := by
  induction events generalizing w with
  | nil => exact h
  | cons d events ih => exact ih (h.deliverQuiet d)

theorem Ready.disconnect (h : Ready w) {answer : Poll} (ha : answer.up = true) (reply : Reply Delivery) :
    Ready (callDisconnect (w.record (.polled answer)) reply) :=
  Ready.deliveries (w := (w.record (.polled answer)).record .disconnect)
    ⟨h.even.disconnect ha, fun hl => Bool.noConfusion hl, h.running⟩ reply.events

theorem Ready.disconnect_idle (h : Ready w) (hl : live w.trace = false) (reply : Reply Delivery) :
    Ready (callDisconnect w reply) :=
  Ready.deliveries (w := w.record .disconnect)
    ⟨h.even.disconnect_idle hl, fun hl => Bool.noConfusion hl, h.running⟩ reply.events

theorem Ready.polled_down (h : Ready w) {answer : Poll} (ha : answer.up = false) :
    Ready (w.record (.polled answer)) :=
  ⟨h.even.polled_down ha, h.fresh, h.running⟩

theorem Ready.polled_idle (h : Ready w) (hl : live w.trace = false) (answer : Poll) :
    Ready (w.record (.polled answer)) :=
  ⟨h.even.polled_idle hl answer, fun hx => absurd (hl.symm.trans hx) Bool.false_ne_true, h.running⟩

theorem Ready.leaveCandidate (h : Ready w) (closing : Time) (reason : AttemptResult)
    (code message : Option String) :
    Ready (leaveCandidate w closing reason code message) := by
  have hl := ledger_leaveCandidate w closing reason code message
  exact h.neutral (.advance _) rfl (congrArg (Act.advance _ :: ·)
    (failCurrent_trace w closing reason code message))
    (congrArg Ledger.disconnectRetries hl) (fun ha => (congrArg Ledger.active hl).trans ha)
    (fun _ hp => CascadePhase.noConfusion ((congrArg Ledger.phase hl).symm.trans hp))

theorem Ready.armSettle (h : Ready w) : Ready (armSettle w) := ⟨h.even, h.fresh, h.running⟩

theorem Ready.advance (h : Ready w) (e : DropEnv) (reason : AttemptResult) (code message : Option String) :
    Ready (advance e w reason code message) := by
  have hv := h.leaveCandidate e.closing reason code message
  simp only [CascadeController.advance]
  generalize CascadeController.leaveCandidate w e.closing reason code message = v at hv
  split_ifs with ha hm hs
  · exact h
  · exact hv.armSettle
  · exact (hv.disconnect hs e.disconnect).armSettle
  · exact (hv.polled_down (by simpa using hs)).armSettle

theorem Ready.callConnect (h : Ready w) (hr : w.ctl.disconnectRetries = 0) (position : Nat)
    (filename : String) (reply : Reply (Delivery × DropEnv)) :
    Ready (callConnect w position filename reply) := by
  have hv : Ready (w.record (.connect (some position) filename)) :=
    ⟨h.even.connect position filename, fun _ => hr, h.running⟩
  simp only [CascadeController.callConnect]
  generalize w.record (.connect (some position) filename) = v at hv
  induction reply.events generalizing v with
  | nil => exact hv
  | cons d events ih =>
      exact ih _ (Ready.onConnectionEvent (w := v.pass d.1.after) ⟨hv.even, hv.fresh, hv.running⟩
        (fun r c m => Ready.advance (w := v.pass d.1.after) ⟨hv.even, hv.fresh, hv.running⟩ d.2 r c m) _ _)

theorem Ready.onTimeout (h : Ready w) (gen : Nat) (e : TimeoutEnv) : Ready (onTimeout w gen e) := by
  simp only [CascadeController.onTimeout]
  split_ifs
  · exact ⟨h.even, h.fresh, h.running⟩
  · exact ⟨h.even, h.fresh, h.running⟩
  · exact Ready.advance (w := { w with ctl := { w.ctl with timeoutId := none } })
      ⟨h.even, h.fresh, h.running⟩ _ _ _ _

theorem Ready.updateConnectButtonTimer (h : Ready w) (dt : Time) (e : TimeoutEnv) :
    Ready (updateConnectButtonTimer w dt e) := by
  simp only [CascadeController.updateConnectButtonTimer]
  split_ifs
  · exact h
  · exact Ready.onTimeout (w := w.pass dt) ⟨h.even, h.fresh, h.running⟩ _ e
  · exact ⟨h.even, h.fresh, h.running⟩

theorem Ready.updateBanner (h : Ready w) : Ready (updateBanner w) :=
  h.frame (updateBanner_trace w) (ledger_updateBanner w)

theorem Ready.onTick (h : Ready w) (gen : Nat) (e : TickEnv) : Ready (onTick w gen e).1 := by
  have hp : Ready (w.pass e.now) := ⟨h.even, h.fresh, h.running⟩
  simp only [CascadeController.onTick]
  split_ifs
  · exact h
  · exact ⟨h.even, h.fresh, h.running⟩
  · exact hp.onTimeout gen e.timeout
  · exact hp.updateBanner.updateConnectButtonTimer e.button e.timeout

theorem Ready.prepareCandidate (h : Ready w) (filename : String) (e : TryEnv) :
    Ready (prepareCandidate w filename e) := by
  have ho : Ready (openAttempt w filename e.now) :=
    h.neutral (.attempt w.ctl.index) rfl rfl rfl id fun _ hp => CascadePhase.noConfusion hp
  have hu := ho.updateConnectButtonTimer e.button e.timeout
  simp only [CascadeController.prepareCandidate]
  generalize CascadeController.updateConnectButtonTimer (openAttempt w filename e.now) e.button
    e.timeout = v at hu
  refine Ready.frame (w := v) hu ?_ ?_
  · exact (updateBanner_trace _).trans (selectServerByName_trace _ _)
  · rw [ledger_armTimeoutAndTicks, ledger_updateBanner, ledger_selectServerByName]
    rfl

theorem Ready.setDisconnectRetries (h : Ready w) (retries : Nat) (hr : live w.trace = true → retries = 0) :
    Ready (setDisconnectRetries w retries) :=
  ⟨h.even, hr, h.running⟩

theorem Ready.awaitDisconnect (h : Ready w) : Ready (awaitDisconnect w) :=
  ⟨h.even, h.fresh, fun hu => ⟨(h.running hu).1, fun hp => CascadePhase.noConfusion hp⟩⟩

/-- The status was true before the next try: the old tunnel is disconnected, or
it has been three times already. -/
theorem Ready.retryDisconnect (h : Ready w) (e : TryEnv) (hs : e.status.up = true) :
    Ready (retryDisconnect (w.record (.polled e.status)) e) := by
  have hd : Ready (callDisconnect (CascadeController.awaitDisconnect
      (CascadeController.setDisconnectRetries (w.record (.polled e.status)) (w.ctl.disconnectRetries + 1)))
        e.disconnect) :=
    Ready.deliveries (w := (CascadeController.awaitDisconnect (CascadeController.setDisconnectRetries
        (w.record (.polled e.status)) (w.ctl.disconnectRetries + 1))).record .disconnect)
      ⟨h.even.disconnect hs, fun hl => Bool.noConfusion hl,
        fun hu => ⟨(h.running hu).1, fun hp => CascadePhase.noConfusion hp⟩⟩ e.disconnect.events
  unfold CascadeController.retryDisconnect
  simp only
  split_ifs with hr
  · have hl : live w.trace = false := by
      cases hl : live w.trace with
      | false => rfl
      | true =>
          have h0 : w.ctl.disconnectRetries = 0 := h.fresh hl
          have h3 : w.ctl.disconnectRetries + 1 > 3 := hr
          omega
    exact Ready.advance ((h.polled_idle hl e.status).setDisconnectRetries _
      fun hx => absurd (hl.symm.trans hx) Bool.false_ne_true) _ _ _ _
  · split
    · exact hd.advance _ _ _ _
    · exact hd.armSettle

theorem Ready.connectCandidate (h : Ready w) (position : Nat) (filename : String) (e : TryEnv) :
    Ready (connectCandidate w position filename e) := by
  have hr := h.setDisconnectRetries 0 fun _ => rfl
  have hc := hr.callConnect rfl position filename e.connect
  unfold CascadeController.connectCandidate
  simp only
  split_ifs
  · exact hr.advance _ _ _ _
  · split
    · exact hc.advance _ _ _ _
    · exact hc

theorem Ready.startCandidate (h : Ready w) (position : Nat) (filename : String) (e : TryEnv) :
    Ready (startCandidate w position filename e) := by
  unfold CascadeController.startCandidate
  split
  · exact h.advance _ _ _ _
  · simp only
    split
    · next hm => exact Ready.advance (h.polled_down
        (by cases he : e.status <;> simp_all [Poll.error, Poll.up])) _ _ _ _
    · split_ifs with hs
      · exact h.retryDisconnect e hs
      · exact (h.polled_down (by simpa using hs)).connectCandidate position filename e

theorem Ready.tryCurrentServer (h : Ready w) (e : TryEnv) : Ready (tryCurrentServer w e) := by
  unfold CascadeController.tryCurrentServer
  split_ifs
  · exact h
  · split
    · exact .ended h.even (finishExhausted_trace w)
    · next filename _ =>
        have hp := h.prepareCandidate filename e
        simp only
        split_ifs
        · exact .ended hp.even (finishExhausted_trace _)
        · exact hp.startCandidate _ filename e

theorem Ready.begin (h : Ready w) (hl : live w.trace = false) (queue : List String) (e : StartEnv) :
    Ready (begin w queue e) := by
  have hq : Ready (loadQueue w queue) :=
    ⟨h.even.begin, fun _ => rfl, fun _ => ⟨rfl, fun hp => CascadePhase.noConfusion hp⟩⟩
  have hp : Ready ((loadQueue w queue).record (.polled e.status)) := hq.polled_idle hl e.status
  have hd := hp.awaitDisconnect.disconnect_idle hl e.disconnect
  simp only [CascadeController.begin]
  split_ifs
  · exact hq.tryCurrentServer e.attempt
  · exact hp.tryCurrentServer e.attempt
  · exact hp.awaitDisconnect.tryCurrentServer e.attempt
  · exact hd.tryCurrentServer e.attempt
  · exact hd.armSettle

theorem Ready.startFromVisibleList (h : Ready w) (hl : live w.trace = false) (e : StartEnv) :
    Ready (startFromVisibleList w e) := by
  simp only [CascadeController.startFromVisibleList]
  split
  · split_ifs
    · exact .ended h.even (finishExhausted_trace w)
    · exact h
  · split_ifs
    · exact .ended (w := { w with ctl := { w.ctl with current := w.win.selected } }) h.even
        (finishSucceeded_trace _)
    · exact h
    · exact h.begin hl _ e

theorem underway_of_inactive (h : Ready w) (ha : w.ctl.active = false) : underway w.trace = false := by
  cases hu : underway w.trace with
  | false => rfl
  | true => exact absurd (ha.symm.trans (h.running hu).1) Bool.false_ne_true

theorem Ready.start (h : Ready w) (ha : w.ctl.active = false) (e : StartEnv) : Ready (start w e) := by
  have hu := underway_of_inactive h ha
  have hp : Ready (showPreparing { w with ctl := { w.ctl with autoCascadeAfterTest := true } }) :=
    ⟨h.even, h.fresh, fun hx => absurd (hu.symm.trans hx) Bool.false_ne_true⟩
  simp only [CascadeController.start]
  split_ifs
  · exact h
  · exact h
  · exact hp.frame (triggerSpeedTest_trace _) (ledger_triggerSpeedTest _)
  · exact hp.frame (activateSort_trace _) (ledger_activateSort _)
  · exact h.startFromVisibleList (h.idle_of_inactive ha) e

structure Calm (w : World) : Prop where
  even : Even w.trace
  idle : live w.trace = false
  inactive : w.ctl.active = false

theorem Calm.deliverQuiet (h : Calm w) (d : Delivery) : Calm (deliverQuiet w d) := by
  have ho : CascadeController.deliverQuiet w d =
      onWindowEvent (w.pass d.after) (normalizeConnectionEvent d.result d.error) :=
    onConnectionEvent_inactive (w := w.pass d.after) h.inactive _ _ _
  have hi : (CascadeController.deliverQuiet w d).ctl.active = false := by
    rw [ho, onWindowEvent_ctl]
    exact h.inactive
  rcases onWindowEvent_trace (w.pass d.after) (normalizeConnectionEvent d.result d.error) with ht | ht | ht
  all_goals rw [← ho, World.pass_trace] at ht
  · exact ⟨ht ▸ h.even, ht ▸ h.idle, hi⟩
  · exact ⟨ht ▸ h.even.neutral rfl, ht ▸ h.idle, hi⟩
  · exact ⟨ht ▸ h.even.neutral rfl, ht ▸ h.idle, hi⟩

theorem Calm.deliveries (h : Calm w) (events : List Delivery) :
    Calm (events.foldl CascadeController.deliverQuiet w) := by
  induction events generalizing w with
  | nil => exact h
  | cons d events ih => exact ih (h.deliverQuiet d)

theorem Ready.finishCancelled (h : Even w.trace) (restore : Bool) (e : DropEnv) :
    Ready (finishCancelled w restore e) := by
  have hl := ledger_completeActiveAttempt ((endRun w .cancelled).pass e.closing) .cancelled
    (some "cancelled") (some "Auto-connect cancelled by the user.")
  have hv := completeActiveAttempt_trace ((endRun w .cancelled).pass e.closing) .cancelled
    (some "cancelled") (some "Auto-connect cancelled by the user.")
  have ha := congrArg Ledger.active hl
  simp only [CascadeController.finishCancelled]
  generalize completeActiveAttempt _ _ _ _ = v at hv ha ⊢
  have hv : Even v.trace := hv ▸ h
  split_ifs with hr hs
  · have hd : Calm ((v.record (.polled e.status)).record .disconnect) := ⟨hv.disconnect hs, rfl, ha⟩
    exact .ended (Calm.deliveries (w := { (v.record (.polled e.status)).record .disconnect with
      win := { v.win with manualDisconnect := true } }) ⟨hd.even, hd.idle, hd.inactive⟩
        e.disconnect.events).even rfl
  · exact .ended (w := v.record (.polled e.status)) (hv.polled_down (by simpa using hs)) rfl
  · exact .ended hv rfl

theorem Ready.cancelOperation (h : Ready w) : Ready (cancelOperation w) := by
  simp only [CascadeController.cancelOperation]
  split_ifs
  · exact h.neutral .cancelOperation rfl rfl rfl id id
  · exact h

theorem Ready.cancel (h : Ready w) (e : DropEnv) : Ready (cancel w e) := by
  simp only [CascadeController.cancel]
  split_ifs with hb
  · exact h
  · have ho := h.cancelOperation.even
    generalize CascadeController.cancelOperation w = v at ho ⊢
    exact Ready.finishCancelled
      (w := { v with ctl := { v.ctl with autoCascadeAfterTest := false, gen := v.ctl.gen + 1 } }) ho true e

theorem Ready.toggle (h : Ready w) (cancelling : DropEnv) (e : StartEnv) : Ready (toggle w cancelling e) := by
  simp only [CascadeController.toggle]
  split_ifs with hb
  · exact h.cancel cancelling
  · have hb : busy w.ctl = false := by simpa using hb
    exact h.start (Bool.or_eq_false_iff.mp hb).1 e

theorem Ready.startAfterTest (h : Ready w) (e : StartEnv) : Ready (startAfterTest w e) := by
  have ha : Ready { w with ctl := { w.ctl with autoCascadeAfterTest := false } } :=
    ⟨h.even, h.fresh, h.running⟩
  simp only [MainWindow.startAfterTest, Bool.and_eq_true, decide_eq_true_eq]
  split_ifs with hb hp
  · exact ha.startFromVisibleList (h.idle_of_preparing hp.2) e
  · exact ha
  · exact h

theorem Ready.onSpeedTestComplete (h : Ready w) (latencies : Latencies) (cancelling : DropEnv)
    (e : StartEnv) :
    Ready (onSpeedTestComplete w latencies cancelling e) := by
  have hc := Ready.cancel (w := { w with win := { w.win with speedTestRunning := false } })
    ⟨h.even, h.fresh, h.running⟩ cancelling
  simp only [MainWindow.onSpeedTestComplete]
  refine Ready.startAfterTest ?_ e
  split_ifs
  · exact ⟨h.even, h.fresh, h.running⟩
  · exact ⟨hc.even, hc.fresh, hc.running⟩
  · exact ⟨h.even, h.fresh, h.running⟩

theorem Ready.signalsConnect (h : Ready w) (e : ConnectEnv) : Ready (signalsConnect w e) := by
  simp only [MainWindow.signalsConnect]
  split_ifs with hm ha hc hs hu
  · exact h
  · exact h.cancel e.cancel
  · have ho := Ready.cancelOperation (w := { w with win := { w.win with manualDisconnect := true } })
      ⟨h.even, h.fresh, h.running⟩
    exact Ready.handleDisconnected ⟨ho.even, ho.fresh, ho.running⟩
  · exact h
  · exact Ready.disconnect_idle (w := { w with win := { w.win with manualDisconnect := true } })
      ⟨h.even, h.fresh, h.running⟩ (h.idle_of_inactive (by simpa using ha)) e.disconnect
  · split
    · exact ⟨h.even, h.fresh, h.running⟩
    · next config _ =>
        split_ifs
        · exact ⟨h.even, h.fresh, h.running⟩
        · refine Ready.deliveries ?_ e.connect.events
          exact h.neutral (.connect none config) rfl rfl rfl id id

theorem Ready.triggerReconnect (h : Ready w) (e : ConnectEnv) : Ready (triggerReconnect w e) := by
  simp only [MainWindow.triggerReconnect]
  split
  · exact h
  · split_ifs
    · exact h
    · exact h.signalsConnect e

theorem Ready.fire (h : Ready w) (source : Source Callback) (e : FireEnv) : Ready (fire w source e) := by
  simp only [MainWindow.fire]
  cases source.callback with
  | timeout gen =>
      have ht := h.onTimeout gen e.timeout
      exact ⟨ht.even, ht.fresh, ht.running⟩
  | tick gen =>
      have ht := h.onTick gen e.tick
      exact ⟨ht.even, ht.fresh, ht.running⟩
  | settle gen =>
      have hs : Ready (onSettle w gen e.attempt) := by
        have hi : Ready { w with ctl := { w.ctl with settleId := none } } := ⟨h.even, h.fresh, h.running⟩
        simp only [onSettle]
        split_ifs
        · exact hi.tryCurrentServer e.attempt
        · exact hi
      exact ⟨hs.even, hs.fresh, hs.running⟩
  | reconnect lost =>
      have ht := h.triggerReconnect e.connect
      exact ⟨ht.even, ht.fresh, ht.running⟩

theorem step_ready {t : World} (h : Ready w) {a : Action} (ht : step w a = some t) : Ready t := by
  have hp : ∀ dt, Ready (w.pass dt) := fun _ => ⟨h.even, h.fresh, h.running⟩
  cases a with
  | backend | load | filter | select | autoReconnect =>
      obtain rfl := Option.some.inj ht
      exact ⟨h.even, h.fresh, h.running⟩
  | fastest after cancelling e =>
      obtain rfl := Option.some.inj ht
      exact (hp after).toggle cancelling e
  | cancelCascade after e =>
      obtain rfl := Option.some.inj ht
      exact (hp after).cancel e
  | connectClick after e =>
      obtain rfl := Option.some.inj ht
      exact (hp after).signalsConnect e
  | speedTestClick =>
      obtain rfl := Option.some.inj ht
      exact h.frame (triggerSpeedTest_trace w) (ledger_triggerSpeedTest w)
  | sortClick on =>
      obtain rfl := Option.some.inj ht
      exact h.frame (onSortToggled_trace w on) (ledger_onSortToggled w on)
  | speedTestDone after latencies cancelling e =>
      simp only [step] at ht
      split_ifs at ht
      obtain rfl := Option.some.inj ht
      exact (hp after).onSpeedTestComplete latencies cancelling e
  | event after result error e =>
      obtain rfl := Option.some.inj ht
      exact (hp after).onConnectionEvent (fun r c m => (hp after).advance e r c m) result error
  | fire id after e =>
      obtain ⟨source, -, rfl⟩ := Option.map_eq_some_iff.mp ht
      exact (hp after).fire source e

theorem initial_ready : Ready initial :=
  ⟨⟨trivial, rfl⟩, fun hl => Bool.noConfusion hl, fun hu => Bool.noConfusion hu⟩

/-- In every state of every run, no handshake has been left behind exactly when
the backend answered for each that its tunnel was established before the cascade
went on. -/
theorem torn_down_iff_answered (actions : List Action) :
    AllStates step (fun w => TornDown w.trace ↔ Answered w.trace) initial actions :=
  (allStates_of_invariant (fun _ _ _ h ht => step_ready h ht) initial_ready actions).mono
    fun _ h => tornDown_iff_answered h.even.agree

def overOpenVpn3 : Act → Bool
  | .polled (.openVpn3 _) => true
  | .polled _ => false
  | _ => true

def down : Poll := .openVpn3 [some []]

def handshaking : Poll := .openVpn3 [some [some ⟨.connection, .connConnecting⟩]]

def timedOutHandshake : List Action :=
  [.backend (some .openVpn3), .load ["a.ovpn", "b.ovpn"], .speedTestClick,
    .speedTestDone 0 [("a.ovpn", none)] {} {},
    .fastest 0 {} { already := down, status := down, attempt := { status := down } },
    .fire 1 (30 * second) { timeout := { drop := { status := handshaking } } },
    .fire 3 (550 * millisecond) { attempt := { status := handshaking } }]

theorem timedOutHandshake_left :
    (run step initial timedOutHandshake).map (fun t =>
      (decide (TornDown t.trace), t.trace.all overOpenVpn3)) =
      some (false, true) := by
  decide

theorem handshake_left_behind :
    ¬ ∀ actions, AllStates step (fun w => w.trace.all overOpenVpn3 = true → TornDown w.trace)
      initial actions := by
  intro h
  obtain ⟨t, ht, he⟩ := Option.map_eq_some_iff.mp timedOutHandshake_left
  obtain ⟨hd, ho⟩ := Prod.mk.inj he
  exact of_decide_eq_false hd ((h timedOutHandshake).last ht ho)

end EovpnPro.CascadeTeardown
