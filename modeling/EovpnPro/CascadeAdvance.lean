import EovpnPro.CandidateFate
import EovpnPro.Runs

namespace EovpnPro.CascadeAdvance

open AutoConnect Events Sources AppState WindowEvents CascadeController MainWindow
open AttemptLedger CascadeLedger CandidateFate Runs

variable {w : World}

def startsAtOnce (manager : Option Backend) (e : StartEnv) : Bool :=
  manager.isNone || !e.status.up || e.startWatch.isSome ||
    (e.disconnect.raises.isSome && !comesUp e.disconnect)

def BeginsSoundly (w : World) (queue : List String) (e : StartEnv) : Prop :=
  startsAtOnce w.win.manager e = true → ∀ filename, queue[0]? = some filename →
    FailsOnce w.win.manager w.win.latencies 0 filename e.attempt

theorem load_startsSoundly (l : Ledger) (queue : List String) (e : TryEnv) :
    StartsSoundly (l.load queue) e ↔ ∀ filename, queue[0]? = some filename →
      FailsOnce l.manager l.latencies 0 filename e :=
  ⟨fun h => h rfl, fun h _ => h⟩

theorem disconnectFirst_keptIff {l : Ledger} (hl : Sound l) {up : Bool}
    (hu : ledger w = if up then l.settle.finish .succeeded else l.settle) (raises : Bool) (e : TryEnv) :
    KeptIff (ledger (if raises then tryCurrentServer w e else armSettle w))
      ((raises && !up) = true → StartsSoundly l e) := by
  cases up with
  | true =>
      have hw : Sound (ledger w) := hu ▸ hl.settle.finish _
      have ha : w.ctl.active = false := congrArg Ledger.active hu
      refine .of_good ?_ fun hr => absurd hr (by simp)
      cases raises with
      | true =>
          exact (tryCurrentServer_keptIff hw e).keep fun ht =>
            absurd (ha.symm.trans ht) Bool.false_ne_true
      | false => exact good_of_inactive hw ha
  | false =>
      have hw : Sound (ledger w) := hu ▸ hl.settle
      cases raises with
      | true =>
          have hk := tryCurrentServer_keptIff hw e
          rw [show ledger w = l.settle from hu] at hk
          exact ⟨fun hs => hk.keep (hs rfl), fun hA _ => hk.broken hA⟩
      | false =>
          have hp : w.ctl.phase = .settling := congrArg Ledger.phase hu
          exact .of_good ⟨hw, fun _ hc => CascadePhase.noConfusion (hp.symm.trans hc)⟩ fun hr =>
            absurd hr (by simp)

theorem begin_keptIff (h : Sound (ledger w)) {queue : List String} (hq : "" ∉ queue) (e : StartEnv) :
    KeptIff (ledger (begin w queue e)) (BeginsSoundly w queue e) := by
  have hl : Sound (ledger (loadQueue w queue)) := h.load hq
  have hg := load_startsSoundly (ledger w) queue e.attempt
  have ha : (loadQueue w queue).ctl.active = true := rfl
  have hm : (loadQueue w queue).win.manager = w.win.manager := rfl
  simp only [begin, BeginsSoundly, startsAtOnce]
  change _ ↔ ∀ filename, queue[0]? = some filename →
    FailsOnce w.win.manager w.win.latencies 0 filename e.attempt at hg
  rw [← hg, ← ledger_loadQueue]
  generalize loadQueue w queue = v at hl ha hm ⊢
  rw [← hm]
  cases hv : v.win.manager with
  | none =>
      simp only [Option.isNone_none, if_true, Bool.true_or, forall_const]
      exact tryCurrentServer_keptIff hl e.attempt
  | some backend =>
      have hp : Sound (ledger (v.record (.polled e.status))) := hl
      cases hu : e.status.up with
      | false =>
          simp only [Option.isNone_some, Bool.not_false, Bool.or_true, Bool.true_or,
            Bool.false_eq_true, if_false, if_true, forall_const]
          exact tryCurrentServer_keptIff hp e.attempt
      | true =>
          have hs : Sound (ledger (awaitDisconnect (v.record (.polled e.status)))) := hl.settle
          have hd := ledger_callDisconnect_settling (w := awaitDisconnect (v.record (.polled e.status))) ha
            (fun hp => CascadePhase.noConfusion hp) e.disconnect
          simp only [Option.isNone_some, Bool.not_true, Bool.or_self, Bool.false_or, Bool.false_eq_true,
            if_false]
          cases hw : e.startWatch.isSome with
          | true =>
              simp only [if_true, Bool.true_or, forall_const]
              exact tryCurrentServer_keptIff hs e.attempt
          | false =>
              simp only [Bool.false_eq_true, if_false, Bool.false_or]
              exact disconnectFirst_keptIff hl hd e.disconnect.raises.isSome e.attempt

def QueueStartsSoundly (w : World) (e : StartEnv) : Prop :=
  ∀ first rest,
    buildCascadeQueue (candidateScope w) w.win.latencies true maxCascadeCandidates = first :: rest →
    (w.win.manager.isSome && e.already.up && decide (w.win.selected = some first)) = false →
      BeginsSoundly w (first :: rest) e

theorem startFromVisibleList_keptIff (h : Good (ledger w)) (e : StartEnv) :
    KeptIff (ledger (startFromVisibleList w e)) (QueueStartsSoundly w e) := by
  simp only [startFromVisibleList, QueueStartsSoundly]
  cases hq : buildCascadeQueue (candidateScope w) w.win.latencies true maxCascadeCandidates with
  | nil =>
      refine .of_good ?_ fun first rest hc => absurd hc (List.cons_ne_nil _ _).symm
      simp only
      split_ifs
      · rw [ledger_finishExhausted]
        exact good_of_inactive (h.finish _) rfl
      · exact h
  | cons first rest =>
      have hn : "" ∉ first :: rest := fun hm => (mem_buildCascadeQueue (hq ▸ hm)).2 rfl
      have hg : (∀ f r, first :: rest = f :: r →
          (w.win.manager.isSome && e.already.up && decide (w.win.selected = some f)) = false →
            BeginsSoundly w (f :: r) e) ↔
          ((w.win.manager.isSome && e.already.up && decide (w.win.selected = some first)) = false →
            BeginsSoundly w (first :: rest) e) :=
        ⟨fun hs => hs first rest rfl, fun hs f r hc => by obtain ⟨rfl, rfl⟩ := List.cons.inj hc; exact hs⟩
      rw [hg]
      simp only
      split_ifs with hu ha
      · rw [ledger_finishSucceeded]
        exact .of_good (good_of_inactive (h.finish_as w.win.selected _) rfl)
          fun hs => absurd (hs.symm.trans hu) Bool.false_ne_true
      · exact .of_good h fun hs => absurd (hs.symm.trans hu) Bool.false_ne_true
      · have hk := begin_keptIff h.toSound hn e
        exact ⟨fun hs => hk.keep (hs (by simpa using hu)), fun hA _ => hk.broken hA⟩

theorem Good.attempting_inactive {l : Ledger} (h : Good l) (ha : l.active = false) :
    l.attempting = false := by
  cases ht : l.attempting with
  | false => rfl
  | true => exact absurd (ha.symm.trans (h.running ht)) Bool.false_ne_true

def ToggleSound (w : World) (e : StartEnv) : Prop :=
  busy w.ctl = false → (candidateScope w).isEmpty = false → w.win.latencies.isEmpty = false →
    QueueStartsSoundly w e

theorem cancel_good (h : Good (ledger w)) (e : DropEnv) : Good (ledger (cancel w e)) := by
  rw [ledger_cancel]
  split_ifs
  · exact good_of_inactive (h.finish _) rfl
  · exact h

theorem start_keptIff (h : Good (ledger w)) (ha : w.ctl.active = false) (e : StartEnv) :
    KeptIff (ledger (start w e))
      ((candidateScope w).isEmpty = false → w.win.latencies.isEmpty = false → QueueStartsSoundly w e) := by
  have hp : Good (ledger w).prepare :=
    ⟨h.prepare (Good.attempting_inactive h ha), fun _ hc => CascadePhase.noConfusion hc⟩
  unfold start
  split_ifs with ht hc hl
  · exact absurd (ha.symm.trans ht) Bool.false_ne_true
  · exact .of_good h fun hn => absurd (hn.symm.trans hc) Bool.false_ne_true
  · refine .of_good ?_ fun _ hn => absurd (hn.symm.trans hl) Bool.false_ne_true
    simp only [apply_ite ledger, ledger_triggerSpeedTest, ledger_activateSort, ite_self]
    exact hp
  · have hk := startFromVisibleList_keptIff h e
    exact ⟨fun hq => hk.keep (hq (by simpa using hc) (by simpa using hl)), fun hA _ _ => hk.broken hA⟩

theorem toggle_keptIff (h : Good (ledger w)) (cancelling : DropEnv) (e : StartEnv) :
    KeptIff (ledger (toggle w cancelling e)) (ToggleSound w e) := by
  simp only [toggle]
  split_ifs with hb
  · exact .of_good (cancel_good h cancelling) fun hn => absurd (hn.symm.trans hb) Bool.false_ne_true
  · have hb : busy w.ctl = false := by simpa using hb
    have hk := start_keptIff h (Bool.or_eq_false_iff.mp hb).1 e
    exact ⟨fun hs => hk.keep (hs hb), fun hA _ => hk.broken hA⟩

theorem signalsConnect_good (h : Good (ledger w)) (e : ConnectEnv) : Good (ledger (signalsConnect w e)) := by
  unfold signalsConnect
  split_ifs with hm ha hc hs hu
  · exact h
  · exact cancel_good h e.cancel
  · simp only [ledger_handleDisconnected]
    exact (ledger_cancelOperation { w with win := { w.win with manualDisconnect := true } }).symm ▸ h
  · exact h
  · rw [ledger_callDisconnect_inactive (by simpa using ha)]
    exact h
  · have ha : w.ctl.active = false := by simpa using ha
    simp only
    split
    · exact h
    · split_ifs
      · exact h
      · rw [ledger_deliveries_inactive (by exact ha)]
        exact h

theorem triggerReconnect_good (h : Good (ledger w)) (e : ConnectEnv) :
    Good (ledger (triggerReconnect w e)) := by
  simp only [triggerReconnect]
  split
  · exact h
  · split_ifs
    · exact h
    · exact signalsConnect_good h e

def SpeedTestSound (w : World) (latencies : Latencies) (e : StartEnv) : Prop :=
  w.win.speedTestCancel = false → w.ctl.autoCascadeAfterTest = true → w.ctl.active = true →
    w.ctl.phase = .preparing → QueueStartsSoundly { w with win := { w.win with latencies } } e

theorem Good.reconfigure {l : Ledger} (h : Good l) (manager : Option Backend) (latencies : Latencies) :
    Good { l with manager, latencies } :=
  ⟨⟨⟨h.failed, h.counted, h.recorded, h.attempted⟩, h.opened, h.running, h.named, h.at_index⟩, h.connecting⟩

theorem startAfterTest_keptIff (h : Good (ledger w)) (e : StartEnv) :
    KeptIff (ledger (startAfterTest w e))
      (w.ctl.autoCascadeAfterTest = true → w.ctl.active = true → w.ctl.phase = .preparing →
        QueueStartsSoundly w e) := by
  simp only [startAfterTest]
  simp only [Bool.and_eq_true, decide_eq_true_eq]
  split_ifs with ha hp
  · have hk := startFromVisibleList_keptIff
      (w := { w with ctl := { w.ctl with autoCascadeAfterTest := false } }) h e
    exact ⟨fun hs => hk.keep (hs ha hp.1 hp.2), fun hA _ _ _ => hk.broken hA⟩
  · exact .of_good h fun _ hq hr => absurd ⟨hq, hr⟩ hp
  · exact .of_good h fun hq => absurd hq ha

theorem onSpeedTestComplete_keptIff (h : Good (ledger w)) (latencies : Latencies) (cancelling : DropEnv)
    (e : StartEnv) :
    KeptIff (ledger (onSpeedTestComplete w latencies cancelling e)) (SpeedTestSound w latencies e) := by
  unfold onSpeedTestComplete SpeedTestSound
  cases hc : w.win.speedTestCancel with
  | true =>
      refine .of_good ?_ fun hf => Bool.noConfusion hf
      simp only [Bool.not_true, Bool.false_eq_true, if_false]
      split_ifs with ha
      · have hl := ledger_cancel { w with win := { w.win with speedTestRunning := false } } cancelling
        have hu := cancel_good (w := { w with win := { w.win with speedTestRunning := false } }) h cancelling
        rw [if_pos (by simp [busy, ha])] at hl
        have hi := congrArg Ledger.active hl
        generalize cancel _ cancelling = u at hu hi ⊢
        have hv := startAfterTest_keptIff
          (w := { u with win := { u.win with speedTestSensitive := true } }) hu e
        exact hv.keep fun _ hb => absurd (hi.symm.trans hb) Bool.false_ne_true
      · have hv := startAfterTest_keptIff (w := { w with
            win := { w.win with speedTestRunning := false, speedTestSensitive := true } }) h e
        exact hv.keep fun hb => absurd hb ha
  | false =>
      have hk := startAfterTest_keptIff (w := { w with
        win := { w.win with speedTestRunning := false, latencies, speedTestSensitive := true } })
        (Good.reconfigure h w.win.manager latencies) e
      exact ⟨fun hs => hk.keep (hs rfl), fun hA _ => hk.broken hA⟩

def FiresSoundly (w : World) (e : FireEnv) : Callback → Prop
  | .timeout gen => Expires w gen e.timeout → attemptOpen w.ctl = true
  | .tick gen => TickExpires w gen e.tick → attemptOpen w.ctl = true
  | .settle gen => gen = w.ctl.gen → StartsSoundly (ledger w) e.attempt
  | .reconnect _ => True

/-- The condition of one step: a handshake that expires is one that is still
open, and a backend fails an attempt that is being started only once. -/
def StepsSoundly (w : World) : Action → Prop
  | .fastest _ _ e => ToggleSound w e
  | .speedTestDone _ latencies _ e => SpeedTestSound w latencies e
  | .fire id after e => ∀ source, due? w.sched id (w.clock + after) = some source →
      FiresSoundly (w.pass after) e source.callback
  | _ => True

theorem onSettle_keptIff (h : Good (ledger w)) (gen : Nat) (e : TryEnv) :
    KeptIff (ledger (onSettle w gen e)) (gen = w.ctl.gen → StartsSoundly (ledger w) e) := by
  simp only [onSettle]
  by_cases hg : (w.ctl.active && decide (gen = w.ctl.gen)) = true
  · have hk := tryCurrentServer_keptIff (w := { w with ctl := { w.ctl with settleId := none } }) h.toSound e
    simp only [hg, if_true]
    exact ⟨fun hs => hk.keep (hs (of_decide_eq_true (Bool.and_eq_true_iff.mp hg).2)),
      fun hA _ => hk.broken hA⟩
  · simp only [hg, Bool.false_eq_true, if_false]
    refine .of_good h fun he ha => absurd ?_ hg
    simp only [he, decide_true, Bool.and_true]
    exact ha

theorem fire_keptIff (h : Good (ledger w)) (source : Source Callback) (e : FireEnv) :
    KeptIff (ledger (fire w source e)) (FiresSoundly w e source.callback) := by
  simp only [fire]
  cases source.callback with
  | timeout gen => exact onTimeout_keptIff h gen e.timeout
  | tick gen => exact onTick_keptIff h gen e.tick
  | settle gen => exact onSettle_keptIff h gen e.attempt
  | reconnect lost => exact .of_good (triggerReconnect_good h e.connect) trivial

theorem step_keptIff {t : World} (h : Good (ledger w)) {a : Action} (ht : step w a = some t) :
    KeptIff (ledger t) (StepsSoundly w a) := by
  cases a with
  | backend manager =>
      obtain rfl := Option.some.inj ht
      exact .of_good (Good.reconfigure h manager w.win.latencies) trivial
  | load | filter | select | autoReconnect =>
      obtain rfl := Option.some.inj ht
      exact .of_good h trivial
  | fastest after cancelling e =>
      obtain rfl := Option.some.inj ht
      exact toggle_keptIff (w := w.pass after) h cancelling e
  | cancelCascade after e =>
      obtain rfl := Option.some.inj ht
      exact .of_good (cancel_good (w := w.pass after) h e) trivial
  | connectClick after e =>
      obtain rfl := Option.some.inj ht
      exact .of_good (signalsConnect_good (w := w.pass after) h e) trivial
  | speedTestClick =>
      obtain rfl := Option.some.inj ht
      exact .of_good (ledger_triggerSpeedTest w ▸ h) trivial
  | sortClick on =>
      obtain rfl := Option.some.inj ht
      exact .of_good (ledger_onSortToggled w on ▸ h) trivial
  | speedTestDone after latencies cancelling e =>
      simp only [step] at ht
      split_ifs at ht
      obtain rfl := Option.some.inj ht
      exact onSpeedTestComplete_keptIff (w := w.pass after) h latencies cancelling e
  | event after result error e =>
      obtain rfl := Option.some.inj ht
      exact .of_good (onConnectionEvent_good (w := w.pass after) h e result error) trivial
  | fire id after e =>
      obtain ⟨source, hs, rfl⟩ := Option.map_eq_some_iff.mp ht
      have hk := fire_keptIff (w := w.pass after) h source e
      exact ⟨fun hg => hk.keep (hg source hs), fun hA s hs' =>
        Option.some.inj (hs.symm.trans hs') ▸ hk.broken hA⟩

theorem initial_good : Good (ledger initial) where
  failed hq := absurd rfl hq
  counted hq := absurd rfl hq
  recorded hq := absurd rfl hq
  attempted := trivial
  opened := rfl
  running ha := Bool.noConfusion ha
  named := List.not_mem_nil
  at_index ha := Bool.noConfusion ha
  connecting ha := Bool.noConfusion ha

/-- A run advances once per candidate exactly when every expired handshake that
it notices is still open and no starting attempt is failed twice. -/
theorem advances_once_iff (actions : List Action) :
    AllStates step (fun w => AdvancesOnce (ledger w)) initial actions ↔
      AllSteps step StepsSoundly initial actions :=
  allStates_iff_allSteps (I := fun w => Good (ledger w)) (fun _ h => h.toAdvancesOnce)
    (fun _ _ _ h ht hg => (step_keptIff h ht).keep hg) (fun _ _ _ h ht hA => (step_keptIff h ht).broken hA)
    actions initial_good

/-- The tick notices the expiry first, and the timeout source, which nothing
removes any more, notices it again. -/
def expiredTwice : List Action :=
  [.backend (some .networkManager), .load ["a.ovpn", "b.ovpn", "c.ovpn"], .speedTestClick,
    .speedTestDone 0 [("a.ovpn", none)] {} {}, .fastest 0 {} {}, .fire 2 (30 * second) {}, .fire 1 0 {}]

theorem expiredTwice_failed :
    (run step initial expiredTwice).map (fun t => (t.ctl.queue, t.ctl.index, t.ctl.failures.map Prod.fst)) =
      some (["a.ovpn", "b.ovpn", "c.ovpn"], 2, ["a.ovpn", "a.ovpn"]) := by
  decide

theorem candidate_failed_twice :
    ¬ ∀ actions, AllStates step (fun w => AdvancesOnce (ledger w)) initial actions := by
  intro h
  obtain ⟨t, ht, he⟩ := Option.map_eq_some_iff.mp expiredTwice_failed
  obtain ⟨hq, hi, hf⟩ : t.ctl.queue = _ ∧ t.ctl.index = _ ∧ t.ctl.failures.map Prod.fst = _ := by
    simpa only [Prod.mk.injEq] using he
  have hA : (ledger t).failed = (ledger t).queue.take (ledger t).index :=
    ((h expiredTwice).last ht).failed (by simp [ledger, hq])
  simp [ledger, hq, hi, hf] at hA

end EovpnPro.CascadeAdvance
