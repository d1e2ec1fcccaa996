import EovpnPro.OpenVpn3Watch

namespace EovpnPro.SessionSubscriptions

open Events OpenVpn3Status OpenVpn3Backend OpenVpn3Watch Subscriptions Runs

variable {b c : OpenVpn3} {path : String}

def dialled : List Call → List String
  | [] => []
  | .connectVpn path :: calls => path :: dialled calls
  | _ :: calls => dialled calls

def statusPath : Topic → Option String
  | .attentionRequired _ => none
  | .statusChange path => some path

def listeners (bus : Bus Topic) (path : String) : List Nat :=
  (bus.live.filter (fun s => s.2 = .statusChange path)).map Prod.fst

/-- One emitted signal: every subscription it was queued for runs its handler,
unless it is gone when its turn comes. Also returned is how many ran. -/
def deliver (status : SessionStatus) (reason : String) (again : Nat → Nat) (b : OpenVpn3) :
    List Nat → OpenVpn3 × Nat
  | [] => (b, 0)
  | id :: ids =>
      if b.bus.live.any (fun s => s.1 = id) then
        let r := deliver status reason again (subStatusSignal b status reason (again id)) ids
        (r.1, r.2 + 1)
      else deliver status reason again b ids

/-- The backend over the sessions it has had: those that reported their end, how
many handlers each status change ran, and, with the session whose change it was,
the session of every status subscription that a change took away. -/
structure Sessions where
  backend : OpenVpn3
  ended : List String := []
  delivered : List Nat := []
  dropped : List (String × String) := []

inductive Action
  | call (action : OpenVpn3Backend.Action)
  | statusChange (path : String) (status : SessionStatus) (reason : String) (again : Nat → Nat)

def lost (before after : Bus Topic) : List String :=
  (before.live.filter (fun s => s ∉ after.live)).filterMap (fun s => statusPath s.2)

/-- Status changes come from a session and not for one subscription. -/
def step (s : Sessions) : Action → Option Sessions
  | .call (.statusChange ..) => none
  | .call action => (OpenVpn3Backend.step s.backend action).map (fun b => { s with backend := b })
  | .statusChange path status reason again =>
      let r := deliver status reason again s.backend (listeners s.backend.bus path)
      some ⟨r.1, if ends status then path :: s.ended else s.ended, r.2 :: s.delivered,
        (lost s.backend.bus r.1.bus).map (fun q => (path, q)) ++ s.dropped⟩

/-- Each session that was dialled and has not ended has one subscription; no
change took away that of another session, or was delivered twice. -/
structure OneEach (s : Sessions) : Prop where
  one : ∀ path ∈ dialled s.backend.calls, path ∉ s.ended → (listeners s.backend.bus path).length = 1
  own : ∀ pair ∈ s.dropped, pair.1 = pair.2
  once : ∀ n ∈ s.delivered, n ≤ 1

def lines (b : OpenVpn3) : Bus Topic × List Nat × List String × Bool :=
  (b.bus, b.subscriptions, dialled b.calls, b.constants)

theorem blind_lines : Blind lines := by
  refine ⟨fun b call hc => ?_, fun _ _ => rfl, fun _ _ => rfl⟩
  cases call with
  | connectVpn path => exact absurd rfl (hc path)
  | importConfig | prepareTunnel | disconnectVpn | callback | raised => rfl

/-- Every status subscription on the bus is one that `unsubscribe_all` would
drop, of a session that was dialled. -/
structure Known (b : OpenVpn3) : Prop where
  tracked : ∀ id path, (id, Topic.statusChange path) ∈ b.bus.live → id ∈ b.subscriptions
  owned : ∀ id path, (id, Topic.statusChange path) ∈ b.bus.live → path ∈ dialled b.calls
  constants : ∀ id path, (id, Topic.statusChange path) ∈ b.bus.live → b.constants = true

theorem Known.of_lines_eq (h : Known b) (hc : lines c = lines b) : Known c := by
  simp only [lines, Prod.mk.injEq] at hc
  obtain ⟨hb, hs, hd, hk⟩ := hc
  refine ⟨?_, ?_, ?_⟩
  · rw [hb, hs]; exact h.tracked
  · rw [hb, hd]; exact h.owned
  · rw [hb, hk]; exact h.constants

theorem mem_listeners {bus : Bus Topic} {id : Nat} :
    id ∈ listeners bus path ↔ (id, Topic.statusChange path) ∈ bus.live := by
  simp only [listeners, List.mem_map, List.mem_filter, decide_eq_true_eq]
  constructor
  · rintro ⟨⟨i, topic⟩, ⟨hm, rfl⟩, rfl⟩
    exact hm
  · intro h
    exact ⟨_, ⟨h, rfl⟩, rfl⟩

theorem mem_foldl_unsubscribe {bus : Bus Topic} {ids : List Nat} {s : Nat × Topic} :
    s ∈ (ids.foldl unsubscribe bus).live ↔ s ∈ bus.live ∧ s.1 ∉ ids := by
  induction ids generalizing bus with
  | nil => simp
  | cons id ids ih =>
      rw [List.foldl_cons, ih]
      simp only [unsubscribe, List.mem_filter, decide_eq_true_eq, List.mem_cons, not_or, and_assoc]

theorem Known.unsubscribed (h : Known b) (id : Nat) (path : String) :
    (id, Topic.statusChange path) ∉ (unsubscribeAll b).bus.live := by
  intro hm
  obtain ⟨hm, hn⟩ := mem_foldl_unsubscribe.mp hm
  exact hn (List.mem_append_right _ (h.tracked id path hm))

theorem Known.unsubscribeAll (h : Known b) : Known (unsubscribeAll b) :=
  ⟨fun id path hm => absurd hm (h.unsubscribed id path),
    fun id path hm => absurd hm (h.unsubscribed id path),
    fun id path hm => absurd hm (h.unsubscribed id path)⟩

theorem Known.listeners_unsubscribeAll (h : Known b) (path : String) :
    listeners (OpenVpn3Backend.unsubscribeAll b).bus path = [] :=
  List.eq_nil_iff_forall_not_mem.mpr fun id hm => h.unsubscribed id path (mem_listeners.mp hm)

theorem listeners_subscribe (bus : Bus Topic) (topic : Topic) (path : String) :
    listeners (subscribe bus topic) path =
      listeners bus path ++ if topic = .statusChange path then [bus.fresh] else [] := by
  simp only [listeners, subscribe, List.filter_append, List.map_append]
  by_cases h : topic = .statusChange path <;> simp [h]

/-- The session that an action dials: the one that is prepared, when the service
answers and says that it is ready. -/
def dials (b : OpenVpn3) : OpenVpn3Backend.Action → Option String
  | .attentionRequired _ answered ready | .otp answered ready =>
      if b.constants && b.module && answered && ready then b.sessionPath else none
  | _ => none

inductive Change (b c : OpenVpn3) (action : OpenVpn3Backend.Action) : Prop
  | kept (hd : dials b action = none) (hs : action = .stopWatch → b.watch = false) (hl : lines c = lines b)
  | watched (hd : dials b action = none) (hs : action ≠ .stopWatch)
      (hl : lines c = lines { b with bus := subscribe b.bus (.attentionRequired none) })
  | dialled (path : String) (hd : dials b action = some path) (hc : b.constants = true)
      (hl : lines c = lines (record (subscribeForEvents b path) (.connectVpn path)))
  | stopped (ha : action = .stopWatch) (hw : b.watch = true) (hl : lines c = lines (unsubscribeAll b))

theorem change_tryToConnect {action : OpenVpn3Backend.Action} (answered : Bool) {ready : Bool}
    (hc : (b.constants && answered) = true) (hs : action = .stopWatch → b.watch = false)
    (hd : dials b action = if b.constants && b.module && answered && ready then b.sessionPath else none) :
    Change b (tryToConnect b ready) action := by
  obtain ⟨hk, ha⟩ := Bool.and_eq_true_iff.mp hc
  simp only [hk, ha, Bool.true_and, Bool.and_true] at hd
  simp only [tryToConnect]
  cases hp : b.sessionPath with
  | none => exact .kept (by rw [hd, hp, ite_self]) hs rfl
  | some path =>
      by_cases hr : (b.module && ready) = true
      · rw [if_pos hr, hp] at hd
        simp only [hr, if_true]
        exact .dialled path hd hk rfl
      · rw [if_neg hr] at hd
        simp only [hr]
        exact .kept hd hs rfl

theorem change_of_step {action : OpenVpn3Backend.Action} (h : OpenVpn3Backend.step b action = some c)
    (hs : ∀ id status reason again, action ≠ .statusChange id status reason again) : Change b c action := by
  cases action with
  | startWatch =>
      obtain rfl := Option.some.inj h
      simp only [OpenVpn3Backend.startWatch, subscribeForAttention]
      split_ifs
      · exact .kept rfl (fun hs => by cases hs) rfl
      · exact .kept rfl (fun hs => by cases hs) rfl
      · exact .watched rfl (fun hs => by cases hs) rfl
  | stopWatch =>
      obtain rfl := Option.some.inj h
      by_cases hw : b.watch = true
      · refine .stopped rfl hw ?_
        simp only [OpenVpn3Backend.stopWatch, hw, if_true]
        rfl
      · refine .kept rfl (fun _ => Bool.eq_false_iff.mpr hw) ?_
        simp only [OpenVpn3Backend.stopWatch, hw]
        rfl
  | connect e =>
      obtain rfl := Option.some.inj h
      exact .kept rfl (fun hs => by cases hs) (blind_lines.connect b e)
  | disconnect again =>
      obtain rfl := Option.some.inj h
      exact .kept rfl (fun hs => by cases hs) (blind_lines.disconnect b again)
  | attentionRequired id answered ready =>
      simp only [OpenVpn3Backend.step] at h
      split_ifs at h
      obtain rfl := Option.some.inj h
      by_cases hg : (b.constants && b.module && answered) = true
      · simp only [subAttentionSignal, hg, if_true]
        refine change_tryToConnect answered ?_ (fun hs => by cases hs) rfl
        simp only [Bool.and_eq_true] at hg ⊢
        exact ⟨hg.1.1, hg.2⟩
      · simp only [subAttentionSignal, hg]
        exact .kept (by simp only [dials, hg, Bool.false_and]; rfl) (fun hs => by cases hs) rfl
  | otp answered ready =>
      simp only [OpenVpn3Backend.step] at h
      split_ifs at h with hg <;> obtain rfl := Option.some.inj h
      · exact change_tryToConnect answered hg (fun hs => by cases hs) rfl
      · refine .kept (if_neg fun hd => hg ?_) (fun hs => by cases hs) rfl
        simp only [Bool.and_eq_true] at hd ⊢
        exact ⟨hd.1.1.1, hd.1.2⟩
  | statusChange id status reason again => exact absurd rfl (hs id status reason again)

section Delivery

variable (status : SessionStatus) (reason : String) (again : Nat → Nat) (ids : List Nat)

theorem deliver_dead (h : ∀ id ∈ ids, ∀ s ∈ b.bus.live, s.1 ≠ id) :
    deliver status reason again b ids = (b, 0) := by
  induction ids with
  | nil => rfl
  | cons id ids ih =>
      have hn : ¬ b.bus.live.any (fun s => s.1 = id) = true := by
        simpa only [List.any_eq_true, decide_eq_true_eq, not_exists, not_and] using
          h id List.mem_cons_self
      rw [deliver, if_neg hn]
      exact ih fun i hi => h i (List.mem_cons_of_mem id hi)

theorem deliver_keeps (hk : (b.constants && ends status) = false)
    (h : ∀ id ∈ ids, ∃ s ∈ b.bus.live, s.1 = id) :
    lines (deliver status reason again b ids).1 = lines b ∧
      (deliver status reason again b ids).2 = ids.length := by
  induction ids generalizing b with
  | nil => exact ⟨rfl, rfl⟩
  | cons id ids ih =>
      have hl : b.bus.live.any (fun s => s.1 = id) = true := by
        simpa only [List.any_eq_true, decide_eq_true_eq] using h id List.mem_cons_self
      have hs := blind_lines.subStatusSignal b status reason (again id)
      rw [hk, if_neg Bool.false_ne_true] at hs
      have hb : (subStatusSignal b status reason (again id)).bus = b.bus := congrArg Prod.fst hs
      have hc : (subStatusSignal b status reason (again id)).constants = b.constants :=
        congrArg (fun l => l.2.2.2) hs
      obtain ⟨hr, hn⟩ := ih (b := subStatusSignal b status reason (again id)) (by rw [hc, hk])
        fun i hi => by rw [hb]; exact h i (List.mem_cons_of_mem id hi)
      rw [deliver, if_pos hl]
      exact ⟨hr.trans hs, congrArg (· + 1) hn⟩

/-- A status that ends its session runs one handler, which drops all others. -/
theorem deliver_ends (h : Known b) (hk : (b.constants && ends status) = true)
    (hne : listeners b.bus path ≠ []) :
    lines (deliver status reason again b (listeners b.bus path)).1 = lines (unsubscribeAll b) ∧
      (deliver status reason again b (listeners b.bus path)).2 = 1 := by
  have hm : ∀ id ∈ listeners b.bus path, (id, Topic.statusChange path) ∈ b.bus.live :=
    fun id hi => mem_listeners.mp hi
  cases hl : listeners b.bus path with
  | nil => exact absurd hl hne
  | cons id ids =>
      rw [hl] at hm
      have hs := blind_lines.subStatusSignal b status reason (again id)
      rw [hk, if_pos rfl] at hs
      have hb : (subStatusSignal b status reason (again id)).bus = (unsubscribeAll b).bus :=
        congrArg Prod.fst hs
      have hd := deliver_dead (b := subStatusSignal b status reason (again id)) status reason again ids ?_
      · have ha : b.bus.live.any (fun s => s.1 = id) = true := by
          simp only [List.any_eq_true, decide_eq_true_eq]
          exact ⟨_, hm id List.mem_cons_self, rfl⟩
        rw [deliver, if_pos ha, hd]
        exact ⟨hs, rfl⟩
      · intro i hi s hsm
        rw [hb] at hsm
        rintro rfl
        exact (mem_foldl_unsubscribe.mp hsm).2
          (List.mem_append_right _ (h.tracked _ _ (hm _ (List.mem_cons_of_mem id hi))))

end Delivery

theorem lost_self (bus : Bus Topic) : lost bus bus = [] := by
  have h : bus.live.filter (fun s => s ∉ bus.live) = [] :=
    List.filter_eq_nil_iff.mpr fun s hs => by simp [hs]
  simp only [lost, h, List.filterMap_nil]

theorem mem_lost_unsubscribeAll (h : Known b) :
    path ∈ lost b.bus (unsubscribeAll b).bus ↔ ∃ id, (id, Topic.statusChange path) ∈ b.bus.live := by
  simp only [lost, List.mem_filterMap, List.mem_filter, decide_eq_true_eq]
  constructor
  · rintro ⟨⟨id, topic⟩, ⟨hm, -⟩, hp⟩
    cases topic with
    | attentionRequired => simp only [statusPath, reduceCtorEq] at hp
    | statusChange other =>
        obtain rfl := Option.some.inj hp
        exact ⟨id, hm⟩
  · rintro ⟨id, hm⟩
    exact ⟨(id, .statusChange path), ⟨hm, h.unsubscribed id path⟩, rfl⟩

/-- The condition of one step: a session is dialled once while it has not ended,
no other session listens when one ends, and the watch is not stopped over a
session that is up. -/
def Orderly (s : Sessions) : Action → Prop
  | .call .stopWatch => s.backend.watch = true → ∀ path ∈ dialled s.backend.calls, path ∈ s.ended
  | .call action =>
      ∀ path, dials s.backend action = some path → path ∈ dialled s.backend.calls → path ∈ s.ended
  | .statusChange path status _ _ =>
      listeners s.backend.bus path ≠ [] →
        if ends status then ∀ id other, (id, Topic.statusChange other) ∈ s.backend.bus.live → other = path
        else (listeners s.backend.bus path).length ≤ 1

variable {s t : Sessions}

theorem step_call {action : OpenVpn3Backend.Action} (h : step s (.call action) = some t) :
    Change s.backend t.backend action ∧ t = { s with backend := t.backend } := by
  cases action with
  | statusChange => simp only [step, reduceCtorEq] at h
  | startWatch | stopWatch | connect | disconnect | attentionRequired | otp =>
      simp only [step] at h
      obtain ⟨c, hc, rfl⟩ := Option.map_eq_some_iff.mp h
      exact ⟨change_of_step hc fun _ _ _ _ => by simp only [ne_eq, reduceCtorEq, not_false_eq_true], rfl⟩

theorem lines_eq (hl : lines c = lines b) :
    c.bus = b.bus ∧ dialled c.calls = dialled b.calls ∧ c.constants = b.constants := by
  simp only [lines, Prod.mk.injEq] at hl
  exact ⟨hl.1, hl.2.2.1, hl.2.2.2⟩

theorem known_subscribe (h : Known b) (path : String) (hc : b.constants = true) :
    Known (record (subscribeForEvents b path) (.connectVpn path)) := by
  have hm : ∀ id other, (id, Topic.statusChange other) ∈ (subscribe b.bus (.statusChange path)).live →
      (id, Topic.statusChange other) ∈ b.bus.live ∨ id = b.bus.fresh ∧ other = path := by
    intro id other hm
    simpa only [subscribe, List.mem_append, List.mem_singleton, Prod.mk.injEq, Topic.statusChange.injEq]
      using hm
  refine ⟨fun id other hi => ?_, fun id other hi => ?_, fun _ _ _ => hc⟩
  · rcases hm id other hi with hi | ⟨rfl, -⟩
    · exact List.mem_append_left _ (h.tracked id other hi)
    · exact List.mem_append_right _ (List.mem_singleton_self _)
  · rcases hm id other hi with hi | ⟨-, rfl⟩
    · exact List.mem_cons_of_mem _ (h.owned id other hi)
    · exact List.mem_cons_self

theorem Known.change {action : OpenVpn3Backend.Action} (h : Known b) (hc : Change b c action) :
    Known c := by
  cases hc with
  | kept hd hs hl => exact h.of_lines_eq hl
  | watched hd hs hl =>
      refine Known.of_lines_eq ?_ hl
      have hm : ∀ id path,
          (id, Topic.statusChange path) ∈ (subscribe b.bus (.attentionRequired none)).live →
            (id, Topic.statusChange path) ∈ b.bus.live := by
        intro id path hm
        simpa only [subscribe, List.mem_append, List.mem_singleton, Prod.mk.injEq, reduceCtorEq, and_false,
          or_false] using hm
      exact ⟨fun id path hi => h.tracked id path (hm id path hi),
        fun id path hi => h.owned id path (hm id path hi),
        fun id path hi => h.constants id path (hm id path hi)⟩
  | dialled path hd hk hl => exact (known_subscribe h path hk).of_lines_eq hl
  | stopped ha hw hl => exact h.unsubscribeAll.of_lines_eq hl

theorem Known.quiet (h : Known b) (hp : path ∉ dialled b.calls) : listeners b.bus path = [] :=
  List.eq_nil_iff_forall_not_mem.mpr fun id hm => hp (h.owned id path (mem_listeners.mp hm))

theorem one_dialled {ended : List String} (h : Known b)
    (hone : ∀ other ∈ dialled b.calls, other ∉ ended → (listeners b.bus other).length = 1)
    (hb : c.bus = subscribe b.bus (.statusChange path)) :
    (∀ other ∈ path :: dialled b.calls, other ∉ ended → (listeners c.bus other).length = 1) ↔
      (path ∈ dialled b.calls → path ∈ ended) := by
  have hn : listeners c.bus path = listeners b.bus path ++ [b.bus.fresh] := by
    rw [hb, listeners_subscribe, if_pos rfl]
  constructor
  · intro ht hm
    by_contra he
    have h2 := ht path List.mem_cons_self he
    rw [hn, List.length_append, hone path hm he] at h2
    exact absurd h2 (Nat.succ_ne_self 1)
  · intro hg other hm he
    by_cases hp : path = other
    · subst hp
      rw [hn, h.quiet fun hm => he (hg hm)]
      rfl
    · have ho : listeners c.bus other = listeners b.bus other := by
        rw [hb, listeners_subscribe, if_neg fun ht => hp (Topic.statusChange.inj ht), List.append_nil]
      rw [ho]
      rcases List.mem_cons.mp hm with rfl | hm
      · exact absurd rfl hp
      · exact hone other hm he

theorem one_change {action : OpenVpn3Backend.Action} {ended : List String} (h : Known b)
    (hone : ∀ path ∈ dialled b.calls, path ∉ ended → (listeners b.bus path).length = 1)
    (hc : Change b c action) :
    (∀ path ∈ dialled c.calls, path ∉ ended → (listeners c.bus path).length = 1) ↔
      (action = .stopWatch → b.watch = true → ∀ path ∈ dialled b.calls, path ∈ ended) ∧
        ∀ path, dials b action = some path → path ∈ dialled b.calls → path ∈ ended := by
  cases hc with
  | kept hd hs hl =>
      obtain ⟨hb, hdl, -⟩ := lines_eq hl
      rw [hb, hdl, hd]
      exact iff_of_true hone ⟨fun ha hw => by rw [hs ha] at hw; exact absurd hw Bool.false_ne_true,
        fun _ hp => absurd hp.symm (Option.some_ne_none _)⟩
  | watched hd hs hl =>
      obtain ⟨hb, hdl, -⟩ := lines_eq hl
      rw [hb, hdl, hd]
      refine iff_of_true (fun path hp he => ?_)
        ⟨fun ha => absurd ha hs, fun _ hp => absurd hp.symm (Option.some_ne_none _)⟩
      rw [listeners_subscribe, if_neg (by simp only [reduceCtorEq, not_false_eq_true]), List.append_nil]
      exact hone path hp he
  | dialled path hd hk hl =>
      obtain ⟨hb, hdl, -⟩ := lines_eq hl
      have hs : action ≠ .stopWatch := by rintro rfl; exact absurd hd.symm (Option.some_ne_none _)
      rw [hdl, hd]
      apply (one_dialled h hone hb).trans
      constructor
      · intro hg
        refine ⟨fun ha => absurd ha hs, fun other hp hm => ?_⟩
        obtain rfl := Option.some.inj hp
        exact hg hm
      · rintro ⟨-, hg⟩
        exact hg path rfl
  | stopped ha hw hl =>
      obtain ⟨hb, hdl, -⟩ := lines_eq hl
      subst ha
      rw [hb, hdl]
      constructor
      · intro ht
        refine ⟨fun _ _ path hp => ?_, fun _ hp => absurd hp.symm (Option.some_ne_none _)⟩
        by_contra he
        have h0 := ht path hp he
        rw [h.listeners_unsubscribeAll] at h0
        exact Nat.zero_ne_one h0
      · rintro ⟨hg, -⟩ path hp he
        exact absurd (hg rfl hw path hp) he

theorem step_call_iff {action : OpenVpn3Backend.Action} (hk : Known s.backend) (ho : OneEach s)
    (h : step s (.call action) = some t) : Known t.backend ∧ (OneEach t ↔ Orderly s (.call action)) := by
  obtain ⟨hc, ht⟩ := step_call h
  refine ⟨hk.change hc, ?_⟩
  have hone := one_change hk ho.one hc
  have heach : OneEach t ↔
      ∀ path ∈ dialled t.backend.calls, path ∉ s.ended → (listeners t.backend.bus path).length = 1 := by
    rw [ht]
    exact ⟨fun hp => hp.one, fun hp => ⟨hp, ho.own, ho.once⟩⟩
  rw [heach, hone]
  cases action with
  | stopWatch =>
      exact ⟨fun hp => hp.1 rfl, fun hp => ⟨fun _ => hp, fun _ hd =>
        absurd hd.symm (Option.some_ne_none _)⟩⟩
  | startWatch | connect | disconnect | attentionRequired | otp | statusChange =>
      exact ⟨fun hp => hp.2, fun hp => ⟨fun ha => absurd ha (by simp), hp⟩⟩

section StatusChange

variable {status : SessionStatus} {reason : String} {again : Nat → Nat}

theorem OneEach.one_open (ho : OneEach s) (path : String) (status : SessionStatus) :
    ∀ other ∈ dialled s.backend.calls, other ∉ (if ends status then path :: s.ended else s.ended) →
      (listeners s.backend.bus other).length = 1 := by
  intro other hd he
  refine ho.one other hd fun hin => he ?_
  split_ifs
  · exact List.mem_cons_of_mem path hin
  · exact hin

theorem step_unheard_iff (hk : Known s.backend) (ho : OneEach s)
    (hne : listeners s.backend.bus path = [])
    (h : step s (.statusChange path status reason again) = some t) :
    Known t.backend ∧ (OneEach t ↔ Orderly s (.statusChange path status reason again)) := by
  have hm := ho.one_open path status
  obtain rfl := Option.some.inj h
  have hq : deliver status reason again s.backend (listeners s.backend.bus path) = (s.backend, 0) := by
    rw [hne]; rfl
  rw [hq]
  refine ⟨hk, iff_of_true ⟨hm, ?_, ?_⟩ fun hl => absurd hne hl⟩
  · simpa only [lost_self, List.map_nil, List.nil_append] using ho.own
  · simpa only [List.forall_mem_cons, Nat.zero_le, true_and] using ho.once

theorem step_ends_iff (hk : Known s.backend) (ho : OneEach s)
    (hne : listeners s.backend.bus path ≠ []) (hc : s.backend.constants = true)
    (he : ends status = true) (h : step s (.statusChange path status reason again) = some t) :
    Known t.backend ∧ (OneEach t ↔ Orderly s (.statusChange path status reason again)) := by
  have hm := ho.one_open path status
  obtain rfl := Option.some.inj h
  obtain ⟨hl, hn⟩ := deliver_ends status reason again hk (by rw [hc, he]; rfl) hne
  set r := deliver status reason again s.backend (listeners s.backend.bus path)
  obtain ⟨hb, hd, -⟩ := lines_eq hl
  have hlost : ∀ other, other ∈ lost s.backend.bus r.1.bus ↔
      ∃ id, (id, Topic.statusChange other) ∈ s.backend.bus.live := by
    intro other
    rw [hb]
    exact mem_lost_unsubscribeAll hk
  refine ⟨hk.unsubscribeAll.of_lines_eq hl, ?_⟩
  simp only [Orderly, he, if_true] at hm ⊢
  constructor
  · intro ht _ i other hi
    refine (ht.own (path, other) (List.mem_append_left _ ?_)).symm
    exact List.mem_map_of_mem ((hlost other).mpr ⟨i, hi⟩)
  · intro hg
    refine ⟨fun other hdl hne' => ?_, ?_, ?_⟩
    · have h1 := hm other (by rwa [hd] at hdl) hne'
      obtain ⟨i, hi⟩ := List.exists_mem_of_length_pos (h1.symm ▸ Nat.one_pos)
      obtain rfl := hg hne i other (mem_listeners.mp hi)
      exact absurd List.mem_cons_self hne'
    · intro pair hp
      rcases List.mem_append.mp hp with hp | hp
      · obtain ⟨other, ho', rfl⟩ := List.mem_map.mp hp
        obtain ⟨i, hi⟩ := (hlost other).mp ho'
        exact (hg hne i other hi).symm
      · exact ho.own pair hp
    · simpa only [hn, List.forall_mem_cons, le_refl, true_and] using ho.once

theorem step_keeps_iff (hk : Known s.backend) (ho : OneEach s)
    (hne : listeners s.backend.bus path ≠ []) (hc : s.backend.constants = true)
    (he : ¬ ends status = true) (h : step s (.statusChange path status reason again) = some t) :
    Known t.backend ∧ (OneEach t ↔ Orderly s (.statusChange path status reason again)) := by
  have hm := ho.one_open path status
  obtain rfl := Option.some.inj h
  obtain ⟨hl, hn⟩ := deliver_keeps (b := s.backend) status reason again
    (listeners s.backend.bus path) (by rw [hc, Bool.eq_false_iff.mpr he]; rfl)
    fun i hi => ⟨_, mem_listeners.mp hi, rfl⟩
  set r := deliver status reason again s.backend (listeners s.backend.bus path)
  obtain ⟨hb, hd, -⟩ := lines_eq hl
  refine ⟨hk.of_lines_eq hl, ?_⟩
  simp only [Orderly, he, Bool.false_eq_true, if_false] at hm ⊢
  constructor
  · intro ht _
    exact hn ▸ ht.once r.2 List.mem_cons_self
  · intro hg
    refine ⟨fun other hdl hne' => ?_, ?_, ?_⟩
    · rw [hb]
      exact hm other (by rwa [hd] at hdl) hne'
    · simpa only [hb, lost_self, List.map_nil, List.nil_append] using ho.own
    · rw [List.forall_mem_cons, hn]
      exact ⟨hg hne, ho.once⟩

theorem step_statusChange_iff (hk : Known s.backend) (ho : OneEach s)
    (h : step s (.statusChange path status reason again) = some t) :
    Known t.backend ∧ (OneEach t ↔ Orderly s (.statusChange path status reason again)) := by
  by_cases hne : listeners s.backend.bus path = []
  · exact step_unheard_iff hk ho hne h
  · obtain ⟨id, hid⟩ := List.exists_mem_of_ne_nil _ hne
    have hc : s.backend.constants = true := hk.constants id path (mem_listeners.mp hid)
    by_cases he : ends status = true
    · exact step_ends_iff hk ho hne hc he h
    · exact step_keeps_iff hk ho hne hc he h

end StatusChange

theorem step_iff {action : Action} (h : Known s.backend ∧ OneEach s) (ht : step s action = some t) :
    Known t.backend ∧ (OneEach t ↔ Orderly s action) := by
  cases action with
  | call action => exact step_call_iff h.1 h.2 ht
  | statusChange path status reason again => exact step_statusChange_iff h.1 h.2 ht

/-- In every run, with or without the service's constants, each session has its
one subscription throughout exactly when every step is orderly. -/
theorem one_each_iff (constants : Bool) (actions : List Action) :
    AllStates step OneEach ⟨{ constants }, [], [], []⟩ actions ↔
      AllSteps step Orderly ⟨{ constants }, [], [], []⟩ actions := by
  refine allStates_iff_allSteps (I := fun s => Known s.backend ∧ OneEach s) (fun _ h => h.2) ?_ ?_
    actions ?_
  · intro s action t h ht hg
    obtain ⟨hk, ho⟩ := step_iff h ht
    exact ⟨hk, ho.mpr hg⟩
  · intro s action t h ht ho
    exact (step_iff h ht).2.mp ho
  · exact ⟨⟨by simp, by simp, by simp⟩, by simp [dialled], by simp, by simp⟩

def lateEnd : List Action :=
  [.call .startWatch, .call (.connect { importConfig := some "/config", prepareTunnel := some "/first" }),
    .call (.attentionRequired 1 true true), .call (.disconnect 0),
    .call (.connect { importConfig := some "/config", prepareTunnel := some "/second" }),
    .call (.attentionRequired 1 true true),
    .statusChange "/first" ⟨.connection, .connDisconnected⟩ "" fun _ => 0]

theorem lateEnd_unsubscribed :
    (run step ⟨{}, [], [], []⟩ lateEnd).map (fun s =>
      (dialled s.backend.calls, s.ended, listeners s.backend.bus "/second")) =
      some (["/second", "/first"], ["/first"], []) := by
  decide

theorem session_unsubscribed :
    ¬ ∀ (constants : Bool) (actions : List Action),
      AllStates step OneEach ⟨{ constants }, [], [], []⟩ actions := by
  intro h
  obtain ⟨s, hs, he⟩ := Option.map_eq_some_iff.mp lateEnd_unsubscribed
  simp only [Prod.mk.injEq] at he
  obtain ⟨hd, hn, hl⟩ := he
  have hone := ((h true lateEnd).last hs).one "/second" (by rw [hd]; exact List.mem_cons_self)
    (by rw [hn]; decide)
  rw [hl] at hone
  exact Nat.zero_ne_one hone

end EovpnPro.SessionSubscriptions
