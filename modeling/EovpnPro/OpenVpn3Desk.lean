import EovpnPro.AttemptFlag
import EovpnPro.OpenVpn3Watch

namespace EovpnPro.OpenVpn3Desk

open Events OpenVpn3Status OpenVpn3Backend OpenVpn3Watch ProfileAudit Subscriptions Runs AttemptFlag

variable {b c : OpenVpn3}

def since (b c : OpenVpn3) : List Call := c.calls.take (c.calls.length - b.calls.length)

def told : List Call → List (Result × Option String)
  | [] => []
  | .callback result error :: calls => told calls ++ [(result, error)]
  | _ :: calls => told calls

def reported (calls : List Call) : Bool :=
  calls.any fun
    | .callback (.bool false) _ | .raised => true
    | _ => false

def prepared (c : OpenVpn3) (calls : List Call) : Bool :=
  c.sessionPath.isSome && calls.any fun
    | .prepareTunnel _ => true
    | _ => false

/-- The backend under a window without a cascade. `attempt` is the window's
`connection_attempt_active`; `silent` says that a `connect` has ended with no
session of its own and nothing told. -/
structure Desk where
  backend : OpenVpn3
  attempt : Bool := false
  silent : Bool := false

/-- The backend goes on to `c`, and the window heeds what it is told meanwhile. -/
def follow (s : Desk) (c : OpenVpn3) : Desk :=
  { s with backend := c, attempt := (told (since s.backend c)).foldl heed s.attempt }

/-- `MainWindowSignals.connect`: `up` is what `status` answers, `chosen` what
`connect` meets with the selected configuration. -/
def click (s : Desk) (up : Bool) (chosen : Option ConnectEnv) : Desk :=
  if s.attempt then { s with attempt := false }
  else
    let b := startWatch s.backend
    if up then follow { s with backend := b } (disconnect b 0)
    else match chosen with
      | none => { s with backend := b }
      | some e =>
          let c := connect b { e with again := 0 }
          { follow { s with backend := b, attempt := true } c with
            silent := s.silent || !(reported (since b c) || prepared c (since b c)) }

inductive Action
  | click (up : Bool) (chosen : Option ConnectEnv)
  | attentionRequired (id : Nat) (answered ready : Bool)
  | otp (answered ready : Bool)
  | otpClosed
  | statusChange (id : Nat) (status : SessionStatus) (reason : String)

def step (s : Desk) : Action → Option Desk
  | .click up chosen => some (click s up chosen)
  | .attentionRequired id answered ready =>
      (OpenVpn3Backend.step s.backend (.attentionRequired id answered ready)).map (follow s)
  | .otp answered ready => (OpenVpn3Backend.step s.backend (.otp answered ready)).map (follow s)
  | .otpClosed => some (follow s (callBack s.backend (.bool false) none 0))
  | .statusChange id status reason =>
      (OpenVpn3Backend.step s.backend (.statusChange id status reason 0)).map (follow s)

def Hearing (b : OpenVpn3) : Prop :=
  b.constants = true ∧
    (b.sessionPath.isSome = true ∧ Subscribed b ∨ ∃ s ∈ b.bus.live, s.2.isStatus = true)

structure Followed (s : Desk) : Prop where
  heard : s.silent = false
  pending : s.attempt = true → Hearing s.backend

/-- The condition of one `connect` with a profile that is not refused: it can be
read, both native calls give a path, and a signal of the session can be answered.
Where it cannot be read, an earlier session has to tell the window. -/
def Carried (b : OpenVpn3) (e : ConnectEnv) : Prop :=
  auditOvpnContent e.config = [] →
    match configContent e.config e.ca with
    | none => Hearing b
    | some _ => (∃ path, e.importConfig = some path ∧ path ≠ "") ∧ e.prepareTunnel.isSome = true ∧
        Hearing { b with sessionPath := e.prepareTunnel }

def Carries (s : Desk) : Action → Prop
  | .click up (some e) => s.attempt = false → up = false → Carried (startWatch s.backend) e
  | _ => True

theorem since_of_append (calls : List Call) (h : c.calls = calls ++ b.calls) : since b c = calls := by
  rw [since, h, List.length_append, Nat.add_sub_cancel, List.take_left]

theorem attempt_click (s : Desk) (up : Bool) (chosen : Option ConnectEnv) :
    (click s up chosen).attempt = clicked s.attempt up chosen.isSome
      (chosen.elim [] fun e =>
        told (since (startWatch s.backend) (connect (startWatch s.backend) { e with again := 0 }))) := by
  simp only [click, clicked]
  cases ha : s.attempt with
  | true => rfl
  | false =>
      cases up with
      | true => exact foldl_heed_false _
      | false =>
          cases chosen with
          | none | some => rfl

theorem Hearing.mono (h : Hearing b) (hk : c.constants = b.constants) (hp : c.sessionPath = b.sessionPath)
    (ha : c.attentionSubscription = b.attentionSubscription) (hl : ∀ s ∈ b.bus.live, s ∈ c.bus.live) :
    Hearing c := by
  obtain ⟨hc, ⟨hs, id, path, hi, hm⟩ | ⟨s, hs, ht⟩⟩ := h
  · exact ⟨hk.trans hc, .inl ⟨hp ▸ hs, id, path, ha.trans hi, hl _ hm⟩⟩
  · exact ⟨hk.trans hc, .inr ⟨s, hl s hs, ht⟩⟩

theorem Hearing.tryToConnect (h : Hearing b) (ready : Bool) : Hearing (tryToConnect b ready) := by
  simp only [OpenVpn3Backend.tryToConnect]
  split
  · exact h
  · split_ifs
    · exact h.mono rfl rfl rfl fun s hs => List.mem_append_left _ hs
    · exact h

theorem told_tryToConnect (b : OpenVpn3) (ready : Bool) : told (since b (tryToConnect b ready)) = [] := by
  simp only [OpenVpn3Backend.tryToConnect]
  split
  · rw [since_of_append [] rfl]; rfl
  · rename_i path hp
    split_ifs
    · rw [since_of_append [.connectVpn path] rfl]; rfl
    · rw [since_of_append [] rfl]; rfl

theorem follow_quiet {s : Desk} (calls : List Call) (hc : c.calls = calls ++ s.backend.calls)
    (ht : told calls = []) : (follow s c).attempt = s.attempt := by
  simp only [follow, since_of_append calls hc, ht, List.foldl_nil]

theorem follow_settled {s : Desk} (calls : List Call) {event : Result × Option String}
    {events : List (Result × Option String)} (hc : c.calls = calls ++ s.backend.calls)
    (ht : told calls = event :: events) (hs : settles event.1 event.2 = true) :
    (follow s c).attempt = false := by
  simp only [follow, since_of_append calls hc, ht, List.foldl_cons, heed_false_of_settles hs,
    foldl_heed_false]

def wires (b : OpenVpn3) : Bool × Option String × Option Nat × Bus Topic :=
  (b.constants, b.sessionPath, b.attentionSubscription, b.bus)

theorem hearing_congr (h : wires c = wires b) : Hearing c ↔ Hearing b := by
  simp only [wires, Prod.mk.injEq] at h
  obtain ⟨hk, hp, ha, hb⟩ := h
  simp only [Hearing, Subscribed, hk, hp, ha, hb]

inductive Dial (b : OpenVpn3) (e : ConnectEnv) (c : OpenVpn3) : Prop
  | refused (h : auditOvpnContent e.config ≠ []) (message : String)
      (hc : c.calls = [.callback (.bool false) (some message)] ++ b.calls)
  | raised (h : auditOvpnContent e.config = []) (hd : configContent e.config e.ca = none)
      (hc : c.calls = [.raised] ++ b.calls) (hw : wires c = wires b)
  | notImported (h : auditOvpnContent e.config = []) (document : List Char)
      (hd : configContent e.config e.ca = some document)
      (hi : ¬ ∃ path, e.importConfig = some path ∧ path ≠ "")
      (hc : c.calls = [.importConfig e.name document] ++ b.calls)
  | imported (h : auditOvpnContent e.config = []) (document : List Char) (path : String)
      (hd : configContent e.config e.ca = some document) (hi : e.importConfig = some path) (hp : path ≠ "")
      (hc : c.calls = [.prepareTunnel path, .importConfig e.name document] ++ b.calls)
      (hw : wires c = wires { b with sessionPath := e.prepareTunnel })

theorem dial_connect (b : OpenVpn3) (e : ConnectEnv) : Dial b e (connect b { e with again := 0 }) := by
  simp only [connect]
  split_ifs with h
  · exact .refused h _ rfl
  · have h := not_not.mp h
    split
    · rename_i hd
      exact .raised h hd rfl rfl
    · rename_i document hd
      split
      · rename_i hi
        exact .notImported h document hd (by simp [hi]) rfl
      · rename_i path hi
        split_ifs with hp
        · exact .notImported h document hd (by simp [hi, hp]) rfl
        · exact .imported h document path hd hi hp rfl rfl

/-- A window that was quiet hears of its attempt exactly when `connect` carries it. -/
theorem dial_iff {s : Desk} {e : ConnectEnv} (hs : s.silent = false) (hd : Dial s.backend e c) :
    Followed { follow { s with attempt := true } c with
      silent := s.silent || !(reported (since s.backend c) || prepared c (since s.backend c)) } ↔
      Carried s.backend e := by
  cases hd with
  | refused h message hc =>
      have hf := follow_settled (s := { s with attempt := true }) _ hc rfl rfl
      refine iff_of_true ⟨?_, fun ht => absurd (hf.symm.trans ht) Bool.false_ne_true⟩ fun hn => absurd hn h
      rw [hs, since_of_append _ hc]
      rfl
  | raised h hd hc hw =>
      have hf := follow_quiet (s := { s with attempt := true }) _ hc rfl
      simp only [Carried, hd]
      constructor
      · exact fun hp _ => (hearing_congr hw).mp (hp.pending hf)
      · refine fun hg => ⟨?_, fun _ => (hearing_congr hw).mpr (hg h)⟩
        rw [hs, since_of_append _ hc]
        rfl
  | notImported h document hd hi hc =>
      simp only [Carried, hd]
      refine iff_of_false (fun hp => ?_) fun hg => hi (hg h).1
      have hq := hp.heard
      rw [hs, since_of_append _ hc] at hq
      simp [reported, prepared] at hq
  | imported h document path hd hi hp hc hw =>
      have hf := follow_quiet (s := { s with attempt := true }) _ hc rfl
      have hpath : c.sessionPath = e.prepareTunnel := congrArg (fun w => w.2.1) hw
      simp only [Carried, hd]
      constructor
      · intro hg _
        refine ⟨⟨path, hi, hp⟩, ?_, (hearing_congr hw).mp (hg.pending hf)⟩
        have hq := hg.heard
        rw [hs, since_of_append _ hc] at hq
        simpa [reported, prepared, hpath] using hq
      · intro hg
        obtain ⟨-, ht, hh⟩ := hg h
        refine ⟨?_, fun _ => (hearing_congr hw).mpr hh⟩
        rw [hs, since_of_append _ hc]
        simp [reported, prepared, hpath, ht]

theorem step_click_iff {s : Desk} (h : Followed s) (up : Bool) (chosen : Option ConnectEnv) :
    Followed (click s up chosen) ↔ Carries s (.click up chosen) := by
  cases ha : s.attempt with
  | true =>
      have hc : click s up chosen = { s with attempt := false } := by simp only [click, ha, if_true]
      rw [hc]
      refine iff_of_true ⟨h.heard, fun hf => absurd hf Bool.false_ne_true⟩ ?_
      cases chosen with
      | none => trivial
      | some e => exact fun hf => by rw [ha] at hf; exact Bool.noConfusion hf
  | false =>
      cases up with
      | true =>
          have hf : (click s true chosen).attempt = false := by
            rw [attempt_click, ha]; rfl
          have hq : (click s true chosen).silent = s.silent := by
            simp only [click, ha, Bool.false_eq_true, if_false, if_true, follow]
          refine iff_of_true ⟨hq ▸ h.heard, fun ht => by rw [hf] at ht; exact Bool.noConfusion ht⟩ ?_
          cases chosen with
          | none => trivial
          | some e => exact fun _ hu => Bool.noConfusion hu
      | false =>
          cases chosen with
          | none =>
              have hc : click s false none = { s with backend := startWatch s.backend } := by
                simp only [click, ha, Bool.false_eq_true, if_false]
              rw [hc]
              exact iff_of_true ⟨h.heard, fun ht => by rw [ha] at ht; exact Bool.noConfusion ht⟩ trivial
          | some e =>
              have hc : click s false (some e) =
                  { follow { s with backend := startWatch s.backend, attempt := true }
                      (connect (startWatch s.backend) { e with again := 0 }) with
                    silent := s.silent || !(
                      reported (since (startWatch s.backend)
                        (connect (startWatch s.backend) { e with again := 0 })) ||
                      prepared (connect (startWatch s.backend) { e with again := 0 })
                        (since (startWatch s.backend)
                          (connect (startWatch s.backend) { e with again := 0 }))) } := by
                simp only [click, ha, Bool.false_eq_true, if_false]
              rw [hc, dial_iff (s := { s with backend := startWatch s.backend }) h.heard
                (dial_connect (startWatch s.backend) e)]
              exact ⟨fun hg _ _ => hg, fun hg => hg ha rfl⟩

theorem follow_subStatusSignal {s : Desk} {status : SessionStatus} {reason : String}
    (h : (follow s (subStatusSignal s.backend status reason 0)).attempt = true) :
    s.attempt = true ∧ wires (subStatusSignal s.backend status reason 0) = wires s.backend := by
  obtain ⟨major, minor⟩ := status
  revert h
  simp only [subStatusSignal]
  cases s.backend.constants with
  | false => exact fun h => ⟨(follow_quiet (c := s.backend) [] rfl rfl).symm.trans h, rfl⟩
  | true =>
      cases major with
      | other => exact fun h => ⟨(follow_quiet (c := s.backend) [] rfl rfl).symm.trans h, rfl⟩
      | connection =>
          cases minor with
          | connConnected =>
              intro h
              have hf := follow_settled (s := s) (c := record s.backend (.callback (.bool true) none))
                [_] rfl rfl rfl
              exact absurd (hf.symm.trans h) Bool.false_ne_true
          | connDisconnected =>
              intro h
              have hf := follow_settled (s := s)
                (c := record (unsubscribeAll s.backend) (.callback (.bool false) none)) [_] rfl rfl rfl
              exact absurd (hf.symm.trans h) Bool.false_ne_true
          | connAuthFailed =>
              intro h
              have hs : settles (.bool false) (some reason) = true := rfl
              simp only [Bool.not_true, Bool.false_eq_true, if_false] at h
              split at h
              · simp only [disconnect] at h
                split at h
                · rename_i path hp
                  exact absurd ((follow_settled [.disconnectVpn path, _] rfl rfl hs).symm.trans h)
                    Bool.false_ne_true
                · exact absurd ((follow_settled [_, _] rfl rfl hs).symm.trans h) Bool.false_ne_true
              · exact absurd ((follow_settled [_] rfl rfl hs).symm.trans h) Bool.false_ne_true
          | connConnecting | connPaused | connResuming =>
              intro h
              refine ⟨?_, rfl⟩
              simp only [Bool.not_true, Bool.false_eq_true, if_false, follow] at h
              rw [since_of_append [_] rfl] at h
              exact (Bool.and_eq_true_iff.mp h).1
          | other => exact fun h => ⟨(follow_quiet (c := s.backend) [] rfl rfl).symm.trans h, rfl⟩

theorem followed_tryToConnect {s : Desk} (h : Followed s) (ready : Bool) :
    Followed (follow s (tryToConnect s.backend ready)) := by
  refine ⟨h.heard, fun ht => (h.pending ?_).tryToConnect ready⟩
  simpa only [follow, told_tryToConnect, List.foldl_nil] using ht

theorem followed_same {s : Desk} (h : Followed s) : Followed (follow s s.backend) :=
  ⟨h.heard, fun ht => h.pending ((follow_quiet [] rfl rfl).symm.trans ht)⟩

theorem step_iff {s t : Desk} {action : Action} (h : Followed s) (ht : step s action = some t) :
    Followed t ↔ Carries s action := by
  cases action with
  | click up chosen =>
      obtain rfl := Option.some.inj ht
      exact step_click_iff h up chosen
  | attentionRequired id answered ready =>
      refine iff_of_true ?_ trivial
      obtain ⟨c, hc, rfl⟩ := Option.map_eq_some_iff.mp ht
      simp only [OpenVpn3Backend.step] at hc
      split_ifs at hc
      obtain rfl := Option.some.inj hc
      simp only [subAttentionSignal]
      split_ifs
      · exact followed_tryToConnect h ready
      · exact followed_same h
  | otp answered ready =>
      refine iff_of_true ?_ trivial
      obtain ⟨c, hc, rfl⟩ := Option.map_eq_some_iff.mp ht
      simp only [OpenVpn3Backend.step] at hc
      split_ifs at hc <;> obtain rfl := Option.some.inj hc
      · exact followed_tryToConnect h ready
      · exact followed_same h
  | otpClosed =>
      obtain rfl := Option.some.inj ht
      have hf := follow_settled (s := s) (c := record s.backend (.callback (.bool false) none)) [_]
        rfl rfl rfl
      exact iff_of_true ⟨h.heard, fun ha => absurd (hf.symm.trans ha) Bool.false_ne_true⟩ trivial
  | statusChange id status reason =>
      refine iff_of_true ?_ trivial
      obtain ⟨c, hc, rfl⟩ := Option.map_eq_some_iff.mp ht
      simp only [OpenVpn3Backend.step] at hc
      split_ifs at hc
      obtain rfl := Option.some.inj hc
      refine ⟨h.heard, fun ha => ?_⟩
      obtain ⟨hs, hw⟩ := follow_subStatusSignal ha
      exact (hearing_congr hw).mpr (h.pending hs)

end EovpnPro.OpenVpn3Desk
