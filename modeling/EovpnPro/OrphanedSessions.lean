import EovpnPro.OpenVpn3Desk

namespace EovpnPro.OrphanedSessions

open Events OpenVpn3Status OpenVpn3Backend OpenVpn3Desk ProfileAudit Runs

/-- What the service makes of the calls of one step: the session that a new tunnel is, and
whether a session that is to be disconnected goes. Either call may fail, and the path of a
session that was made may be lost with the answer. -/
structure Replies where
  made : Option String := none
  taken : Bool := true

def serve (r : Replies) (sessions : List String) : Call → List String
  | .prepareTunnel _ => r.made.toList ++ sessions
  | .disconnectVpn path => if r.taken then sessions.filter fun other => other ≠ path else sessions
  | _ => sessions

def served (r : Replies) (calls : List Call) (sessions : List String) : List String :=
  calls.foldr (fun call sessions => serve r sessions call) sessions

structure System where
  backend : OpenVpn3
  sessions : List String := []

def answer : OpenVpn3Backend.Action → Option String
  | .connect e => e.prepareTunnel
  | _ => none

/-- A new session has a path of its own, and no other path is answered. -/
def Fresh (sessions : List String) (a : OpenVpn3Backend.Action) (r : Replies) : Prop :=
  (∀ path ∈ r.made, path ∉ sessions) ∧ ∀ path ∈ answer a, r.made = some path

instance (sessions : List String) (a : OpenVpn3Backend.Action) (r : Replies) : Decidable (Fresh sessions a r) :=
  inferInstanceAs (Decidable (_ ∧ _))

/-- A session also ends by itself, or by another client of the service. -/
inductive Action
  | call (action : OpenVpn3Backend.Action) (replies : Replies)
  | ended (path : String)

def step (s : System) : Action → Option System
  | .call a r =>
      if Fresh s.sessions a r then
        (OpenVpn3Backend.step s.backend a).map fun c => ⟨c, served r (since s.backend c) s.sessions⟩
      else none
  | .ended path => some { s with sessions := s.sessions.filter fun other => other ≠ path }

def Owned (s : System) : Prop := ∀ path ∈ s.sessions, s.backend.sessionPath = some path

def tells (status : SessionStatus) : Bool :=
  decide (status.major = .connection) && !decide (status.minor = .other)

def prepares : OpenVpn3Backend.Action → Bool
  | .connect e =>
      decide (auditOvpnContent e.config = []) && (configContent e.config e.ca).isSome &&
        e.importConfig.any fun path => path ≠ ""
  | _ => false

def letsGo (b : OpenVpn3) : OpenVpn3Backend.Action → Bool
  | .disconnect _ => true
  | .connect e => !decide (auditOvpnContent e.config = []) && decide (0 < e.again)
  | .statusChange _ status _ again =>
      b.constants && tells status &&
        (decide (0 < again) || (decide (status.minor = .connAuthFailed) && b.module))
  | _ => false

/-- A tunnel is prepared only when no session is left and then its path arrives, and a
session that is let go goes. -/
def Kept (s : System) : Action → Prop
  | .call a r =>
      (prepares a = true → s.sessions = [] ∧ r.made = answer a) ∧
        (letsGo s.backend a = true → s.sessions = [] ∨ r.taken = true)
  | .ended _ => True

variable {b c d : OpenVpn3} {r : Replies} {sessions left : List String} {s t : System}

def released (b : OpenVpn3) (r : Replies) (sessions : List String) : List String :=
  match b.sessionPath with
  | some path => serve r sessions (.disconnectVpn path)
  | none => sessions

def Leaves (r : Replies) (b : OpenVpn3) (sessions : List String) (c : OpenVpn3) (left : List String) : Prop :=
  ∃ calls, c.calls = calls ++ b.calls ∧ served r calls sessions = left

theorem leaves_same (h : c.calls = b.calls) : Leaves r b sessions c sessions := ⟨[], h, rfl⟩

theorem Leaves.trans {last : List String} (h : Leaves r b sessions c left) (h' : Leaves r c left d last) :
    Leaves r b sessions d last := by
  obtain ⟨calls, hc, hserved⟩ := h
  obtain ⟨calls', hd, hserved'⟩ := h'
  refine ⟨calls' ++ calls, by rw [hd, hc, List.append_assoc], ?_⟩
  rw [served, List.foldr_append]
  exact (congrArg (served r calls') hserved).trans hserved'

theorem leaves_record (r : Replies) (b : OpenVpn3) (sessions : List String) (call : Call) :
    Leaves r b sessions (record b call) (serve r sessions call) := ⟨[call], rfl, rfl⟩

theorem Leaves.served (h : Leaves r b sessions c left) : served r (since b c) sessions = left := by
  obtain ⟨calls, hc, hserved⟩ := h
  rw [since_of_append calls hc]
  exact hserved

def Settles (r : Replies) (b : OpenVpn3) (sessions : List String) (go : Bool) (c : OpenVpn3) : Prop :=
  Leaves r b sessions c (if go then released b r sessions else sessions) ∧
    c.sessionPath = if go then none else b.sessionPath

theorem settles_disconnectAgain (r : Replies) (b : OpenVpn3) (sessions : List String) :
    Settles r b sessions true (disconnectAgain b) := by
  simp only [Settles, released, disconnectAgain, if_true]
  cases hb : b.sessionPath with
  | some path => exact ⟨leaves_record r b sessions (.disconnectVpn path), rfl⟩
  | none => exact ⟨leaves_record r b sessions (.callback (.bool false) none), hb⟩

theorem Settles.next {go go' : Bool} (h : Settles r b sessions go c) (h' : ∀ sessions, Settles r c sessions go' d) :
    Settles r b sessions (go || go') d := by
  obtain ⟨hleaves, hpath⟩ := h
  cases go with
  | false =>
      obtain ⟨hleaves', hpath'⟩ := h' sessions
      have hsame : c.sessionPath = b.sessionPath := hpath
      have hreleased : released c r sessions = released b r sessions := by rw [released, released, hsame]
      rw [hreleased] at hleaves'
      rw [hsame] at hpath'
      exact ⟨hleaves.trans hleaves', hpath'⟩
  | true =>
      obtain ⟨hleaves', hpath'⟩ := h' (released b r sessions)
      have hnone : c.sessionPath = none := hpath
      have hreleased : released c r (released b r sessions) = released b r sessions := by rw [released, hnone]
      rw [hreleased, ite_self] at hleaves'
      rw [hnone, ite_self] at hpath'
      exact ⟨hleaves.trans hleaves', hpath'⟩

theorem settles_callBack (r : Replies) (b : OpenVpn3) (sessions : List String) (result : Result)
    (error : Option String) (again : Nat) :
    Settles r b sessions (decide (0 < again)) (callBack b result error again) := by
  rw [callBack]
  induction again with
  | zero => exact ⟨leaves_record r b sessions (.callback result error), rfl⟩
  | succ n ih =>
      rw [Function.iterate_succ_apply', decide_eq_true n.succ_pos]
      have hnext := ih.next fun sessions => settles_disconnectAgain r _ sessions
      rwa [Bool.or_true] at hnext

theorem settles_disconnect (r : Replies) (b : OpenVpn3) (sessions : List String) (again : Nat) :
    Settles r b sessions true (disconnect b again) := by
  simp only [Settles, released, disconnect, if_true]
  cases hb : b.sessionPath with
  | some path => exact ⟨leaves_record r b sessions (.disconnectVpn path), rfl⟩
  | none =>
      obtain ⟨hleaves, -⟩ := settles_callBack r b sessions (.bool false) none again
      simp only [released, hb, ite_self] at hleaves
      exact ⟨hleaves, rfl⟩

theorem settles_same (hc : c.calls = b.calls) (hpath : c.sessionPath = b.sessionPath) :
    Settles r b sessions false c := ⟨leaves_same hc, hpath⟩

/-- What an action does: it prepares a tunnel whose session takes the place of what was held,
or it settles with the session that is held. -/
def Turns (r : Replies) (b : OpenVpn3) (sessions : List String) (a : OpenVpn3Backend.Action) (c : OpenVpn3) : Prop :=
  if prepares a then Leaves r b sessions c (r.made.toList ++ sessions) ∧ c.sessionPath = answer a
  else Settles r b sessions (letsGo b a) c

theorem turns_connect (r : Replies) (b : OpenVpn3) (sessions : List String) (e : ConnectEnv) :
    Turns r b sessions (.connect e) (connect b e) := by
  simp only [Turns, prepares, letsGo, answer, connect]
  by_cases haudit : auditOvpnContent e.config = []
  · simp only [haudit, ne_eq, not_true_eq_false, if_false, decide_true, Bool.true_and, Bool.not_true,
      Bool.false_and]
    cases hcontent : configContent e.config e.ca with
    | none => exact ⟨leaves_record r b sessions .raised, rfl⟩
    | some document =>
        cases himport : e.importConfig with
        | none => exact ⟨leaves_record r b sessions (.importConfig e.name document), rfl⟩
        | some path =>
            by_cases hpath : path = ""
            · simp only [hpath, if_true]
              exact ⟨leaves_record r b sessions (.importConfig e.name document), rfl⟩
            · simp only [hpath, if_false, Option.isSome_some, Option.any_some, not_false_eq_true, decide_true,
                Bool.and_self, if_true]
              exact ⟨⟨[.prepareTunnel path, .importConfig e.name document], rfl, rfl⟩, trivial⟩
  · simp only [haudit, ne_eq, not_false_eq_true, if_true, decide_false, Bool.false_and, Bool.not_false, Bool.true_and]
    exact settles_callBack r b sessions _ _ e.again

theorem settles_tryToConnect (r : Replies) (b : OpenVpn3) (sessions : List String) (ready : Bool) :
    Settles r b sessions false (tryToConnect b ready) := by
  simp only [tryToConnect]
  split
  · exact settles_same rfl rfl
  · split_ifs
    · exact ⟨leaves_record r b sessions _, rfl⟩
    · exact settles_same rfl rfl

theorem blind_module : OpenVpn3Watch.Blind OpenVpn3.module := ⟨fun _ _ _ => rfl, fun _ _ => rfl, fun _ _ => rfl⟩

theorem settles_subStatusSignal (r : Replies) (b : OpenVpn3) (sessions : List String) (id : Nat)
    (status : SessionStatus) (reason : String) (again : Nat) :
    Settles r b sessions (letsGo b (.statusChange id status reason again))
      (subStatusSignal b status reason again) := by
  obtain ⟨major, minor⟩ := status
  simp only [letsGo, subStatusSignal, tells]
  cases hconstants : b.constants with
  | false => exact settles_same rfl rfl
  | true =>
      cases major with
      | other => exact settles_same rfl rfl
      | connection =>
          cases minor with
          | other => exact settles_same rfl rfl
          | connAuthFailed =>
              have hmodule : (unsubscribeAll (callBack b (.bool false) (some reason) again)).module = b.module :=
                blind_module.unsubscribeAll.callBack b _ _ again
              have hfirst : Settles r b sessions (decide (0 < again))
                  (unsubscribeAll (callBack b (.bool false) (some reason) again)) :=
                settles_callBack r b sessions _ _ again
              simp only [hmodule]
              cases b.module with
              | false => simpa using hfirst
              | true => simpa using hfirst.next fun sessions => settles_disconnect r _ sessions again
          | connDisconnected =>
              have h : Settles r b sessions (decide (0 < again)) (callBack (unsubscribeAll b) (.bool false) none again) :=
                settles_callBack r (unsubscribeAll b) sessions _ _ again
              simpa using h
          | connConnecting | connConnected | connPaused | connResuming =>
              simp only [reduceCtorEq, decide_true, decide_false, Bool.not_false, Bool.not_true, Bool.true_and,
                Bool.false_and, Bool.or_false, Bool.false_eq_true, if_false]
              exact settles_callBack r b sessions _ none again

theorem turns_step {a : OpenVpn3Backend.Action} (r : Replies) (sessions : List String)
    (h : OpenVpn3Backend.step b a = some c) : Turns r b sessions a c := by
  cases a with
  | connect e =>
      obtain rfl := Option.some.inj h
      exact turns_connect r b sessions e
  | disconnect again =>
      obtain rfl := Option.some.inj h
      exact settles_disconnect r b sessions again
  | startWatch =>
      obtain rfl := Option.some.inj h
      simp only [startWatch, subscribeForAttention]
      split_ifs <;> exact settles_same rfl rfl
  | stopWatch =>
      obtain rfl := Option.some.inj h
      simp only [stopWatch]
      split_ifs <;> exact settles_same rfl rfl
  | attentionRequired id answered ready =>
      simp only [OpenVpn3Backend.step, subAttentionSignal] at h
      split_ifs at h
      · obtain rfl := Option.some.inj h
        exact settles_tryToConnect r b sessions ready
      · obtain rfl := Option.some.inj h
        exact settles_same rfl rfl
  | otp answered ready =>
      simp only [OpenVpn3Backend.step] at h
      split_ifs at h
      · obtain rfl := Option.some.inj h
        exact settles_tryToConnect r b sessions ready
      · obtain rfl := Option.some.inj h
        exact settles_same rfl rfl
  | statusChange id status reason again =>
      simp only [OpenVpn3Backend.step] at h
      split_ifs at h
      obtain rfl := Option.some.inj h
      exact settles_subStatusSignal r b sessions id status reason again

theorem letsGo_of_prepares {a : OpenVpn3Backend.Action} (h : prepares a = true) : letsGo b a = false := by
  cases a with
  | connect e =>
      simp only [prepares, Bool.and_eq_true, decide_eq_true_eq] at h
      simp only [letsGo, h.1.1, decide_true, Bool.not_true, Bool.false_and]
  | startWatch | stopWatch | disconnect | attentionRequired | otp | statusChange => cases h

theorem released_eq_nil_iff (h : Owned ⟨b, sessions⟩) : released b r sessions = [] ↔ sessions = [] ∨ r.taken = true := by
  cases hb : b.sessionPath with
  | none =>
      have hnil : sessions = [] := List.eq_nil_iff_forall_not_mem.mpr fun path hpath => by
        have hheld : b.sessionPath = some path := h path hpath
        rw [hb] at hheld
        cases hheld
      simp only [released, hb, hnil, true_or]
  | some held =>
      simp only [released, hb, serve]
      cases r.taken with
      | false => simp
      | true =>
          simp only [if_true, or_true, iff_true, List.filter_eq_nil_iff]
          intro path hpath
          have hheld : b.sessionPath = some path := h path hpath
          rw [hb] at hheld
          obtain rfl := Option.some.inj hheld
          simp

theorem owned_prepared_iff {a : OpenVpn3Backend.Action} (hfresh : Fresh sessions a r)
    (hpath : c.sessionPath = answer a) :
    Owned ⟨c, r.made.toList ++ sessions⟩ ↔ sessions = [] ∧ r.made = answer a := by
  obtain ⟨hnew, hanswer⟩ := hfresh
  constructor
  · intro howned
    have hanswered : ∀ path ∈ r.made.toList ++ sessions, answer a = some path :=
      fun path hmem => hpath.symm.trans (howned path hmem)
    refine ⟨List.eq_nil_iff_forall_not_mem.mpr fun path hold => ?_, ?_⟩
    · exact hnew path (hanswer path (hanswered path (List.mem_append_right _ hold))) hold
    · cases hmade : r.made with
      | some path => exact (hanswered path (List.mem_append_left _ (Option.mem_toList.mpr hmade))).symm
      | none =>
          refine (Option.eq_none_iff_forall_not_mem.mpr fun path hmem => ?_).symm
          have hsome := hanswer path hmem
          rw [hmade] at hsome
          cases hsome
  · rintro ⟨hnil, hmade⟩ path hmem
    rw [hnil, List.append_nil, Option.mem_toList] at hmem
    exact hpath.trans (hmade.symm.trans hmem)

theorem owned_step {a : Action} (h : Owned s) (hs : step s a = some t) : Owned t ↔ Kept s a := by
  cases a with
  | ended path =>
      obtain rfl := Option.some.inj hs
      exact iff_of_true (fun other hother => h other (List.mem_of_mem_filter hother)) trivial
  | call a r =>
      simp only [step] at hs
      split_ifs at hs with hfresh
      obtain ⟨c, hc, rfl⟩ := Option.map_eq_some_iff.mp hs
      have hturns := turns_step r s.sessions hc
      simp only [Turns] at hturns
      cases hprepares : prepares a with
      | true =>
          rw [if_pos hprepares] at hturns
          obtain ⟨hleaves, hpath⟩ := hturns
          rw [hleaves.served, owned_prepared_iff hfresh hpath]
          simp only [Kept, hprepares, letsGo_of_prepares hprepares, forall_const, Bool.false_eq_true, false_imp_iff,
            and_true]
      | false =>
          rw [if_neg (Bool.eq_false_iff.mp hprepares)] at hturns
          obtain ⟨hleaves, hpath⟩ := hturns
          rw [hleaves.served]
          simp only [Kept, hprepares, Bool.false_eq_true, false_imp_iff, true_and]
          cases hgo : letsGo s.backend a with
          | true =>
              rw [hgo, if_pos rfl] at hpath
              simp only [if_true, forall_const]
              rw [← released_eq_nil_iff h, List.eq_nil_iff_forall_not_mem]
              refine forall₂_congr fun path hmem => ?_
              simp only [hpath, reduceCtorEq]
          | false =>
              rw [hgo, if_neg Bool.false_ne_true] at hpath
              rw [if_neg Bool.false_ne_true]
              exact iff_of_true (fun path hmem => hpath.trans (h path hmem)) nofun

theorem sessions_owned_iff (constants : Bool) (actions : List Action) :
    AllStates step Owned ⟨{ constants }, []⟩ actions ↔ AllSteps step Kept ⟨{ constants }, []⟩ actions :=
  allStates_iff_allSteps (I := Owned) (fun _ h => h) (fun _ _ _ h hs hk => (owned_step h hs).mpr hk)
    (fun _ _ _ h hs ht => (owned_step h hs).mp ht) actions fun _ h => by cases h

structure Orphan (path : String) (s : System) : Prop where
  left : path ∈ s.sessions
  lost : s.backend.sessionPath ≠ some path

theorem Orphan.released {path : String} (h : Orphan path s) : path ∈ released s.backend r s.sessions := by
  rw [OrphanedSessions.released]
  split
  · next held hheld =>
      simp only [serve]
      split_ifs
      · refine List.mem_filter.mpr ⟨h.left, decide_eq_true fun he => h.lost ?_⟩
        rw [hheld, he]
      · exact h.left
  · exact h.left

theorem Orphan.step {path : String} {a : Action} (h : Orphan path s) (hs : step s a = some t)
    (hne : a ≠ .ended path) : Orphan path t := by
  cases a with
  | ended other =>
      obtain rfl := Option.some.inj hs
      refine ⟨List.mem_filter.mpr ⟨h.left, decide_eq_true fun he => hne ?_⟩, h.lost⟩
      rw [he]
  | call a r =>
      simp only [OrphanedSessions.step] at hs
      split_ifs at hs with hfresh
      obtain ⟨c, hc, rfl⟩ := Option.map_eq_some_iff.mp hs
      have hturns := turns_step r s.sessions hc
      simp only [Turns] at hturns
      split_ifs at hturns with hprepares
      · obtain ⟨hleaves, hpath⟩ := hturns
        refine ⟨?_, fun hheld => ?_⟩
        · rw [hleaves.served]
          exact List.mem_append_right _ h.left
        · exact hfresh.1 path (hfresh.2 path (hpath.symm.trans hheld)) h.left
      · obtain ⟨hleaves, hpath⟩ := hturns
        refine ⟨?_, fun hheld => ?_⟩
        · rw [hleaves.served]
          split_ifs
          · exact h.released
          · exact h.left
        · rw [hpath] at hheld
          split_ifs at hheld
          exact h.lost hheld

theorem Orphan.run {path : String} {actions : List Action} (h : Orphan path s)
    (hnot : Action.ended path ∉ actions) : AllStates OrphanedSessions.step (Orphan path) s actions := by
  induction actions generalizing s with
  | nil => exact h
  | cons a actions ih =>
      refine ⟨h, fun t ht => ih (h.step ht ?_) (List.not_mem_of_not_mem_cons hnot)⟩
      exact (List.ne_of_not_mem_cons hnot).symm

theorem orphan_of_prepares {a : OpenVpn3Backend.Action} {path : String} (hprepares : prepares a = true)
    (hfresh : Fresh sessions a r) (hpath : path ∈ sessions) (hturns : Turns r b sessions a c) :
    ∃ left, Leaves r b sessions c left ∧ Orphan path ⟨c, left⟩ := by
  rw [Turns, if_pos hprepares] at hturns
  obtain ⟨hleaves, hanswer⟩ := hturns
  refine ⟨_, hleaves, List.mem_append_right _ hpath, fun hheld => ?_⟩
  exact hfresh.1 path (hfresh.2 path (hanswer.symm.trans hheld)) hpath

theorem abandoned_session_stays {d d₁ d₂ : Desk} (up : Bool) (chosen : Option ConnectEnv) {e : ConnectEnv}
    {r : Replies} {sessions : List String} {path : String} {actions : List Action}
    (hattempt : d.attempt = true) (hpath : path ∈ sessions)
    (habandon : OpenVpn3Desk.step d (.click up chosen) = some d₁)
    (hagain : OpenVpn3Desk.step d₁ (.click false (some e)) = some d₂)
    (hprepares : prepares (.connect e) = true) (hfresh : Fresh sessions (.connect e) r)
    (hnot : Action.ended path ∉ actions) :
    AllStates step (Orphan path) ⟨d₂.backend, served r (since d.backend d₂.backend) sessions⟩ actions := by
  simp only [OpenVpn3Desk.step, click, hattempt, if_true, Option.some.injEq] at habandon
  subst d₁
  simp only [OpenVpn3Desk.step, click, Bool.false_eq_true, if_false, follow, Option.some.injEq] at hagain
  subst d₂
  have hwatch : Turns r d.backend sessions .startWatch (startWatch d.backend) := turns_step r sessions rfl
  obtain ⟨hquiet, -⟩ := hwatch
  have hconnect := turns_connect r (startWatch d.backend) sessions { e with again := 0 }
  obtain ⟨left, hleaves, horphan⟩ := orphan_of_prepares (a := .connect { e with again := 0 }) hprepares hfresh hpath hconnect
  rw [(hquiet.trans hleaves).served]
  exact horphan.run hnot

def tunnelAt (path : String) : ConnectEnv where
  importConfig := some "/net/openvpn/v3/configuration/1"
  prepareTunnel := some path

theorem abandoned_session_stays_thrice :
    AllStates step (Orphan "/sessions/1")
      ⟨(click { backend := connect {} (tunnelAt "/sessions/1") } false (some (tunnelAt "/sessions/2"))).backend,
        ["/sessions/2", "/sessions/1"]⟩
      [.call (.disconnect 0) {}] :=
  abandoned_session_stays (d := { backend := connect {} (tunnelAt "/sessions/1"), attempt := true })
    (r := { made := some "/sessions/2" }) false none rfl (by decide) rfl rfl (by decide) (by decide)
    (by simp)

end EovpnPro.OrphanedSessions
