import EovpnPro.OpenVpn3Backend

namespace EovpnPro.OpenVpn3Watch

open Events OpenVpn3Status OpenVpn3Backend Subscriptions Runs

variable {α : Type} {b : OpenVpn3}

def Subscribed (b : OpenVpn3) : Prop :=
  ∃ id path, b.attentionSubscription = some id ∧ (id, Topic.attentionRequired path) ∈ b.bus.live

/-- The flag agrees with the subscription, and a watch that is started is one
that is subscribed. -/
structure WatchAgrees (b : OpenVpn3) : Prop where
  flag : b.watch = b.attentionSubscription.isSome
  subscribed : Subscribed (startWatch b)

/-- The flag agrees, and what is remembered as subscribed is held on the bus. -/
structure Registered (b : OpenVpn3) : Prop where
  flag : b.watch = b.attentionSubscription.isSome
  held : b.attentionSubscription.isSome = true → Subscribed b

def watching (b : OpenVpn3) : Bool × Option Nat × Bus Topic × Bool :=
  (b.watch, b.attentionSubscription, b.bus, b.constants)

theorem Registered.of_watching_eq {c : OpenVpn3} (h : Registered b) (hc : watching c = watching b) :
    Registered c := by
  simp only [watching, Prod.mk.injEq] at hc
  obtain ⟨hw, ha, hb, -⟩ := hc
  refine ⟨by rw [hw, ha, h.flag], fun hs => ?_⟩
  rw [ha] at hs
  simpa only [Subscribed, ha, hb] using h.held hs

/-- A view of the backend in which no call leaves a trace except the dialling of
a session, and no path does. -/
structure Blind (f : OpenVpn3 → α) : Prop where
  call : ∀ b call, (∀ path, call ≠ .connectVpn path) → f (record b call) = f b
  session : ∀ b path, f { b with sessionPath := path } = f b
  config : ∀ b path, f { b with configPath := path } = f b

section Views

variable {f : OpenVpn3 → α}

theorem Blind.disconnectAgain (h : Blind f) (b : OpenVpn3) : f (disconnectAgain b) = f b := by
  simp only [OpenVpn3Backend.disconnectAgain]
  split
  · rw [h.session, h.call _ _ (by simp)]
  · rw [h.call _ _ (by simp)]

theorem Blind.callBack (h : Blind f) (b : OpenVpn3) (result : Result) (error : Option String) (again : Nat) :
    f (callBack b result error again) = f b := by
  simp only [OpenVpn3Backend.callBack]
  induction again with
  | zero => exact h.call _ _ (by simp)
  | succ n ih => rw [Function.iterate_succ_apply', h.disconnectAgain, ih]

theorem Blind.disconnect (h : Blind f) (b : OpenVpn3) (again : Nat) : f (disconnect b again) = f b := by
  simp only [OpenVpn3Backend.disconnect]
  split
  · rw [h.session, h.call _ _ (by simp)]
  · rw [h.session, h.callBack]

theorem Blind.connect (h : Blind f) (b : OpenVpn3) (e : ConnectEnv) : f (connect b e) = f b := by
  simp only [OpenVpn3Backend.connect]
  split_ifs
  · exact h.callBack _ _ _ _
  · split
    · exact h.call _ _ (by simp)
    · split
      · rw [h.config, h.call _ _ (by simp)]
      · split_ifs
        · rw [h.config, h.call _ _ (by simp)]
        · rw [h.session, h.call _ _ (by simp), h.config, h.call _ _ (by simp)]

theorem Blind.unsubscribeAll (h : Blind f) : Blind (fun b => f (unsubscribeAll b)) :=
  ⟨fun b call hc => h.call (OpenVpn3Backend.unsubscribeAll b) call hc,
    fun b path => h.session (OpenVpn3Backend.unsubscribeAll b) path,
    fun b path => h.config (OpenVpn3Backend.unsubscribeAll b) path⟩

/-- A status change that ends a session drops every subscription and nothing
else that such a view shows; the others leave all of it alone. -/
theorem Blind.subStatusSignal (h : Blind f) (b : OpenVpn3) (status : SessionStatus) (reason : String)
    (again : Nat) :
    f (subStatusSignal b status reason again) =
      if b.constants && ends status then f (OpenVpn3Backend.unsubscribeAll b) else f b := by
  obtain ⟨major, minor⟩ := status
  simp only [OpenVpn3Backend.subStatusSignal]
  cases b.constants with
  | false => rfl
  | true =>
      cases major with
      | other => rfl
      | connection =>
          cases minor with
          | connAuthFailed =>
              have hu := h.unsubscribeAll.callBack b (.bool false) (some reason) again
              have he : (true && ends ⟨.connection, .connAuthFailed⟩) = true := rfl
              simp only [Bool.not_true, Bool.false_eq_true, if_false, he, if_true]
              split_ifs
              · exact (h.disconnect _ again).trans hu
              · exact hu
          | connDisconnected => exact h.callBack (OpenVpn3Backend.unsubscribeAll b) (.bool false) none again
          | connConnecting | connConnected | connPaused | connResuming => exact h.callBack b _ none again
          | other => rfl

end Views

theorem blind_watching : Blind watching := ⟨fun _ _ _ => rfl, fun _ _ => rfl, fun _ _ => rfl⟩

theorem Registered.agrees (h : Registered b) : WatchAgrees b := by
  refine ⟨h.flag, ?_⟩
  cases hw : b.watch with
  | true =>
      simp only [startWatch, hw, if_true]
      exact h.held (h.flag.symm.trans hw)
  | false =>
      have ha : b.attentionSubscription.isSome = false := h.flag.symm.trans hw
      simp only [startWatch, hw, subscribeForAttention, ha, Bool.false_eq_true, if_false]
      exact ⟨_, none, rfl, mem_subscribe_self _ _⟩

theorem Registered.startWatch (h : Registered b) : Registered (startWatch b) := by
  have hs := h.agrees.subscribed
  refine ⟨?_, fun _ => hs⟩
  obtain ⟨id, path, ha, -⟩ := hs
  rw [ha]
  simp only [OpenVpn3Backend.startWatch]
  split_ifs with hw
  · exact hw
  · rfl

theorem Registered.unsubscribed (c : OpenVpn3) (hw : c.watch = false) (ha : c.attentionSubscription = none) :
    Registered c :=
  ⟨by rw [hw, ha]; rfl, fun hs => by rw [ha] at hs; exact Bool.noConfusion hs⟩

theorem Registered.stopWatch (h : Registered b) : Registered (stopWatch b) := by
  simp only [OpenVpn3Backend.stopWatch]
  split_ifs
  · exact .unsubscribed _ rfl rfl
  · exact h

theorem Registered.tryToConnect (h : Registered b) (ready : Bool) : Registered (tryToConnect b ready) := by
  simp only [OpenVpn3Backend.tryToConnect]
  split
  · exact h
  · split_ifs
    · refine ⟨h.flag, fun hs => ?_⟩
      obtain ⟨id, path, ha, hm⟩ := h.held hs
      exact ⟨id, path, ha, mem_subscribe hm _⟩
    · exact h

theorem flag_subStatusSignal_iff (h : Registered b) (status : SessionStatus) (reason : String) (again : Nat) :
    (subStatusSignal b status reason again).watch =
      (subStatusSignal b status reason again).attentionSubscription.isSome ↔
      (b.constants = true → ends status = true → b.attentionSubscription = none) := by
  have hs := blind_watching.subStatusSignal b status reason again
  by_cases hc : (b.constants && ends status) = true
  · rw [if_pos hc] at hs
    obtain ⟨hc, he⟩ := Bool.and_eq_true_iff.mp hc
    have hw : (subStatusSignal b status reason again).watch = b.watch := congrArg Prod.fst hs
    have ha : (subStatusSignal b status reason again).attentionSubscription = none :=
      congrArg (fun v => v.2.1) hs
    rw [hw, ha, h.flag]
    simp [hc, he]
  · rw [if_neg hc] at hs
    refine iff_of_true (h.of_watching_eq hs).flag fun h1 h2 => absurd ?_ hc
    rw [h1, h2]
    rfl

theorem registered_subStatusSignal (h : Registered b) (status : SessionStatus) (reason : String) (again : Nat)
    (hg : b.constants = true → ends status = true → b.attentionSubscription = none) :
    Registered (subStatusSignal b status reason again) := by
  have hf := (flag_subStatusSignal_iff h status reason again).mpr hg
  refine ⟨hf, fun ha => ?_⟩
  have hs := blind_watching.subStatusSignal b status reason again
  by_cases hc : (b.constants && ends status) = true
  · rw [if_pos hc] at hs
    rw [show (subStatusSignal b status reason again).attentionSubscription = none from
      congrArg (fun v => v.2.1) hs] at ha
    exact Bool.noConfusion ha
  · rw [if_neg hc] at hs
    exact (h.of_watching_eq hs).held ha

/-- The condition of one step: a session does not end while the attention
subscription is held. -/
def KeepsWatch (b : OpenVpn3) : Action → Prop
  | .statusChange _ status _ _ => b.constants = true → ends status = true → b.attentionSubscription = none
  | _ => True

theorem step_keeps {c : OpenVpn3} (h : Registered b) {a : Action} (hc : step b a = some c)
    (hg : KeepsWatch b a) :
    Registered c := by
  cases a with
  | startWatch => obtain rfl := Option.some.inj hc; exact h.startWatch
  | stopWatch => obtain rfl := Option.some.inj hc; exact h.stopWatch
  | connect e => obtain rfl := Option.some.inj hc; exact h.of_watching_eq (blind_watching.connect b e)
  | disconnect again => obtain rfl := Option.some.inj hc; exact h.of_watching_eq (blind_watching.disconnect b again)
  | attentionRequired id answered ready =>
      simp only [step] at hc
      split_ifs at hc
      obtain rfl := Option.some.inj hc
      simp only [subAttentionSignal]
      split_ifs
      · exact h.tryToConnect ready
      · exact h
  | otp answered ready =>
      simp only [step] at hc
      split_ifs at hc <;> obtain rfl := Option.some.inj hc
      · exact h.tryToConnect ready
      · exact h
  | statusChange id status reason again =>
      simp only [step] at hc
      split_ifs at hc
      obtain rfl := Option.some.inj hc
      exact registered_subStatusSignal h status reason again hg

theorem step_breaks {c : OpenVpn3} (h : Registered b) {a : Action} (hc : step b a = some c)
    (hw : WatchAgrees c) :
    KeepsWatch b a := by
  cases a with
  | statusChange id status reason again =>
      simp only [step] at hc
      split_ifs at hc
      obtain rfl := Option.some.inj hc
      exact (flag_subStatusSignal_iff h status reason again).mp hw.flag
  | startWatch | stopWatch | connect | disconnect | attentionRequired | otp => trivial

/-- In every run, with or without the service's constants, flag and subscription
agree throughout exactly when no session ends while the attention subscription
is held. -/
theorem watch_agrees_iff (constants : Bool) (actions : List Action) :
    AllStates step WatchAgrees { constants } actions ↔ AllSteps step KeepsWatch { constants } actions :=
  allStates_iff_allSteps (fun _ h => h.agrees) (fun _ _ _ h hc hg => step_keeps h hc hg)
    (fun _ _ _ h hc hw => step_breaks h hc hw) actions (.unsubscribed _ rfl rfl)

def secondConnection : List Action :=
  [.startWatch, .connect { importConfig := some "/config", prepareTunnel := some "/session" },
    .attentionRequired 1 true true, .statusChange 2 ⟨.connection, .connConnected⟩ "" 0,
    .statusChange 2 ⟨.connection, .connDisconnected⟩ "" 0, .startWatch]

theorem secondConnection_unsubscribed :
    (run step {} secondConnection).map (fun b => (b.watch, b.attentionSubscription)) = some (true, none) := by
  decide

theorem watch_without_subscription :
    ¬ ∀ (constants : Bool) (actions : List Action), AllStates step WatchAgrees { constants } actions := by
  intro h
  obtain ⟨b, hb, hs⟩ := Option.map_eq_some_iff.mp secondConnection_unsubscribed
  obtain ⟨hw, ha⟩ := Prod.mk.inj hs
  have hf := ((h true secondConnection).last hb).flag
  rw [hw, ha] at hf
  exact Bool.noConfusion hf

end EovpnPro.OpenVpn3Watch
