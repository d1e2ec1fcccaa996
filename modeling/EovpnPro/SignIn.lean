import EovpnPro.Attention

namespace EovpnPro.SignIn

open OpenVpn3Backend hiding step subAttentionSignal tryToConnect Action
open SessionSubscriptions hiding step Action
open OpenVpn3Watch Subscriptions Runs Attention

variable {σ : Type} {c : Constants} {service : Service σ} {Asks : σ → String → Ask → Prop} {path : String} {d t : Desk σ}
  {lookups : Nat → Credentials.Lookup}

/-- No call fails, the constants know what the service asks for, and a session for which
nothing is required is ready. -/
structure Answering (c : Constants) (service : Service σ) (Asks : σ → String → Ask → Prop) : Prop where
  typeGroups : ∀ s path, ∃ groups, service.typeGroups s path = some groups
  check : ∀ s path tg, ∃ ids, service.check s path tg = some ids
  fetch : ∀ {s path a}, Asks s path a → ∃ name, service.fetch s path a.slot = some name
  known : ∀ {s path a}, Asks s path a → a.slot.type ∈ c.types ∧ a.slot.group ∈ c.groups
  provide : ∀ s path slot text, ∃ t, service.provide s path slot text = some t
  setDco : ∀ s path on, ∃ t, service.setDco s path on = some t
  ready : ∀ {s path}, (∀ a, ¬Asks s path a) → service.ready s path = true

theorem Answering.told (ha : Answering c service Asks) (s : σ) (path : String) : Told c service Asks s path where
  typeGroups := ha.typeGroups s path
  check := ha.check s path
  fetch _ h := ha.fetch h
  known _ h := ha.known h

theorem Answering.asks_sendAuth_iff (ha : Answering c service Asks) (hl : Lawful service Asks) {slot : Slot}
    {text other : String} {ask : Ask} : Asks (sendAuth service d path slot text).service other ask ↔
      Asks d.service other ask ∧ (other = path → ask.slot ≠ slot) := by
  obtain ⟨t, hp⟩ := ha.provide d.service path slot text
  simp only [sendAuth, hp, Option.getD_some]
  exact hl.provide hp other ask

theorem Answering.asks_loop_iff (ha : Answering c service Asks) (hl : Lawful service Asks) {asked : List (Ask × Nat)}
    {ask : Ask} : Asks (asked.foldl (process service path lookups) d).service path ask ↔
      Asks d.service path ask ∧ ∀ a ∈ asked, a.1.slot = ask.slot → isCredential a.1.name = false := by
  induction asked generalizing d with
  | nil => exact ⟨fun h => ⟨h, fun _ hm => by cases hm⟩, fun h => h.1⟩
  | cons a asked ih =>
      rw [List.foldl_cons, ih, List.forall_mem_cons, ← and_assoc]
      refine and_congr_left' ?_
      cases hc : isCredential a.1.name with
      | true =>
          obtain ⟨text, htext⟩ := reply_of_credential hc d.page (lookups a.2)
          simp only [process, htext]
          rw [ha.asks_sendAuth_iff hl]
          refine and_congr_right' ⟨fun h hslot => absurd hslot.symm (h rfl), fun h _ hslot => ?_⟩
          cases h hslot.symm
      | false =>
          simp only [process, reply_of_not_credential hc d.page (lookups a.2)]
          split_ifs <;> simp

/-- A listener that can be reached knows its backend, and the constants are there. -/
structure Bound (b : OpenVpn3) : Prop where
  constants : b.constants = true
  module : ∀ id topic, (id, Topic.attentionRequired topic) ∈ b.bus.live → b.module = true

def wiring (b : OpenVpn3) : Bool × Bool × Bus Topic := (b.constants, b.module, b.bus)

theorem blind_wiring : Blind wiring := ⟨fun _ _ _ => rfl, fun _ _ => rfl, fun _ _ => rfl⟩

theorem Bound.of_wiring {a b : OpenVpn3} (h : Bound a) (hw : wiring b = wiring a) : Bound b := by
  simp only [wiring, Prod.mk.injEq] at hw
  obtain ⟨hc, hm, hb⟩ := hw
  exact ⟨hc.trans h.constants, fun id topic hi => hm.trans (h.module id topic (hb ▸ hi))⟩

theorem Bound.unsubscribeAll {b : OpenVpn3} (h : Bound b) : Bound (unsubscribeAll b) :=
  ⟨h.constants, fun id topic hi => h.module id topic (mem_foldl_unsubscribe.mp hi).1⟩

theorem Bound.dial {b : OpenVpn3} (h : Bound b) (ready : Bool) : Bound (OpenVpn3Backend.tryToConnect b ready) := by
  simp only [OpenVpn3Backend.tryToConnect]
  split
  · exact h
  · split_ifs
    · refine ⟨h.constants, fun id topic hi => h.module id topic ?_⟩
      obtain hi | hi := List.mem_append.mp hi
      · exact hi
      · cases (Prod.mk.inj (List.mem_singleton.mp hi)).2
    · exact h

theorem Bound.call {action : OpenVpn3Backend.Action} {a b : OpenVpn3} (h : Bound a)
    (hs : OpenVpn3Backend.step a action = some b) : Bound b := by
  cases action with
  | startWatch =>
      obtain rfl := Option.some.inj hs
      simp only [startWatch]
      split_ifs
      · exact h
      · exact ⟨by rw [← h.constants, subscribeForAttention]; split_ifs <;> rfl,
          fun _ _ _ => by rw [subscribeForAttention]; split_ifs <;> rfl⟩
  | stopWatch =>
      obtain rfl := Option.some.inj hs
      simp only [stopWatch]
      split_ifs
      · exact ⟨h.unsubscribeAll.constants, h.unsubscribeAll.module⟩
      · exact h
  | connect e =>
      obtain rfl := Option.some.inj hs
      exact h.of_wiring (blind_wiring.connect a e)
  | disconnect again =>
      obtain rfl := Option.some.inj hs
      exact h.of_wiring (blind_wiring.disconnect a again)
  | attentionRequired id answered ready =>
      simp only [OpenVpn3Backend.step, OpenVpn3Backend.subAttentionSignal] at hs
      split_ifs at hs
      · obtain rfl := Option.some.inj hs
        exact h.dial ready
      · obtain rfl := Option.some.inj hs
        exact h
  | otp answered ready =>
      simp only [OpenVpn3Backend.step] at hs
      split_ifs at hs
      · obtain rfl := Option.some.inj hs
        exact h.dial ready
      · obtain rfl := Option.some.inj hs
        exact h
  | statusChange id status reason again =>
      simp only [OpenVpn3Backend.step] at hs
      split_ifs at hs
      obtain rfl := Option.some.inj hs
      have hw := blind_wiring.subStatusSignal a status reason again
      split_ifs at hw
      · exact h.unsubscribeAll.of_wiring hw
      · exact h.of_wiring hw

theorem step_backend {a : Action σ} (h : step c service d a = some t) :
    t.backend = d.backend ∨ (∃ action, OpenVpn3Backend.step d.backend action = some t.backend) ∨
      ∃ again, t.backend = callBack d.backend (.bool false) none again := by
  cases a with
  | call action =>
      obtain ⟨b, hb, rfl⟩ := step_call h
      exact .inr (.inl ⟨action, hb⟩)
  | edit page dco | others s =>
      obtain rfl := Option.some.inj h
      exact .inl rfl
  | attentionRequired id major minor lookups =>
      simp only [step] at h
      split_ifs at h with hlive
      obtain rfl := Option.some.inj h
      simp only [subAttentionSignal]
      split
      · exact .inl rfl
      · rename_i path hs
        split_ifs with hknown
        · exact .inl rfl
        · split
          · exact .inl rfl
          · split
            · exact .inl (looped service path lookups _ d).backend
            · rename_i s hdco
              simp only [Bool.or_eq_true, Bool.not_eq_true', not_or, Bool.not_eq_false] at hknown
              refine .inr (.inl ⟨.attentionRequired id true (service.ready s path), ?_⟩)
              simp only [OpenVpn3Backend.step, hlive, if_true, OpenVpn3Backend.subAttentionSignal, hknown.1.1, hknown.1.2,
                Bool.and_self, tryToConnect, (looped service path lookups _ d).backend]
  | submit k otp =>
      simp only [step] at h
      split_ifs at h
      obtain rfl := Option.some.inj h
      simp only [sendOtp]
      split
      · exact .inl rfl
      · rename_i path hs
        split_ifs with hc
        · refine .inr (.inl ⟨.otp true (service.ready (sendAuth service { d with dialogs := d.dialogs.eraseIdx k } path
            ⟨c.credentials, c.challengeStatic, 0⟩ (String.join otp)).service path), ?_⟩)
          simp only [OpenVpn3Backend.step, hc, Bool.and_self, if_true, tryToConnect, sendAuth]
        · exact .inl rfl
  | close k again =>
      simp only [step] at h
      split_ifs at h
      obtain rfl := Option.some.inj h
      exact .inr (.inr ⟨again, rfl⟩)

theorem Bound.step {a : Action σ} (h : Bound d.backend) (ht : Attention.step c service d a = some t) : Bound t.backend := by
  obtain hb | ⟨action, hb⟩ | ⟨again, hb⟩ := step_backend ht
  · rwa [hb]
  · exact h.call hb
  · rw [hb]
    exact h.of_wiring (blind_wiring.callBack _ _ _ _)

theorem Bound.start : Bound {} := ⟨rfl, fun _ _ hi => by cases hi⟩

/-- When every call is answered, a signal leaves exactly the inputs that are no
credentials, dials when there are none, and opens a dialog for each challenge. -/
theorem signal_answers (hl : Lawful service Asks) (ha : Answering c service Asks) (hb : Bound d.backend)
    {id major minor : Nat} {topic : Option String} (hlive : (id, Topic.attentionRequired topic) ∈ d.backend.bus.live)
    (hs : d.backend.sessionPath = some path) (hmajor : major ∈ c.majors) (hminor : minor ∈ c.minors)
    (lookups : Nat → Credentials.Lookup) :
    ∃ (u : Desk σ) (asked : List Ask), step c service d (.attentionRequired id major minor lookups) =
        some (tryToConnect service u path) ∧ u.backend = d.backend ∧ asked.Nodup ∧ (∀ ask, ask ∈ asked ↔ Asks d.service path ask) ∧
      (∀ ask, Asks u.service path ask ↔ Asks d.service path ask ∧ isCredential ask.name = false) ∧
      u.dialogs = ((asked.filter fun a => a.name = "static_challenge").map fun a => (path, a.slot)).reverse ++ d.dialogs := by
  obtain ⟨attention, hattention⟩ := (ha.told d.service path).getAttention hl
  obtain ⟨hnodup, hmem⟩ := hl.getAttention hattention
  obtain ⟨hbackend, hpage, hdco, hdialogs, hsent⟩ := looped service path lookups attention.zipIdx d
  obtain ⟨s, hset⟩ := ha.setDco (attention.zipIdx.foldl (process service path lookups) d).service path
    (attention.zipIdx.foldl (process service path lookups) d).dco
  refine ⟨{ attention.zipIdx.foldl (process service path lookups) d with service := s }, attention,
    ?_, hbackend, hnodup.of_map, hmem, fun ask => ?_, challenges_zipIdx path attention 0 ▸ hdialogs⟩
  · have hany : (d.backend.bus.live.any fun s => decide (s.1 = id) && !s.2.isStatus) = true :=
      List.any_eq_true.mpr ⟨_, hlive, by simp [Topic.isStatus]⟩
    have hknown : (!d.backend.constants || !d.backend.module || decide (major ∉ c.majors ∨ minor ∉ c.minors)) = false := by
      simp [hb.constants, hb.module id topic hlive, hmajor, hminor]
    simp only [step, hany, if_true, subAttentionSignal, hs, hknown, Bool.false_eq_true, if_false, hattention, hset]
  · refine (hl.setDco hset path ask).trans ((ha.asks_loop_iff hl).trans (and_congr_right fun hask => ?_))
    constructor
    · intro h
      obtain ⟨k, hk⟩ := List.mem_iff_getElem?.mp ((hmem ask).mpr hask)
      exact h (ask, k) (List.mem_zipIdx_iff_getElem?.mpr hk) rfl
    · intro hno x hx hslot
      have hx := (hmem x.1).mp (List.fst_mem_of_mem_zipIdx hx)
      rwa [hl.distinct hx hask hslot]

/-- The session was dialled once, is listened to, and is asked for nothing more. -/
structure SignedIn (Asks : σ → String → Ask → Prop) (path : String) (d t : Desk σ) : Prop where
  answered : ∀ ask, ¬Asks t.service path ask
  dialled : dialled t.backend.calls = path :: dialled d.backend.calls
  heard : ∃ id, (id, Topic.statusChange path) ∈ t.backend.bus.live
  dialogs : t.dialogs = d.dialogs

theorem SignedIn.tryToConnect (ha : Answering c service Asks) {u : Desk σ} (hs : u.backend.sessionPath = some path)
    (hm : u.backend.module = true) (hasks : ∀ ask, ¬Asks u.service path ask)
    (hdialled : SessionSubscriptions.dialled u.backend.calls = SessionSubscriptions.dialled d.backend.calls)
    (hdialogs : u.dialogs = d.dialogs) : SignedIn Asks path d (tryToConnect service u path) where
  answered := hasks
  dialled := by rw [dialled_tryToConnect service hs, hm, ha.ready hasks, hdialled]; rfl
  heard := by
    simp only [Attention.tryToConnect, OpenVpn3Backend.tryToConnect, hs, hm, ha.ready hasks, Bool.and_self, if_true]
    exact ⟨_, mem_subscribe_self _ _⟩
  dialogs := hdialogs

theorem submit_signs_in (hl : Lawful service Asks) (ha : Answering c service Asks) {u : Desk σ}
    (hc : u.backend.constants = true) (hm : u.backend.module = true) (hs : u.backend.sessionPath = some path)
    (hasks : ∀ ask, Asks u.service path ask → ask.slot = (challenge c).slot)
    (hdialled : dialled u.backend.calls = dialled d.backend.calls) {x : String × Slot}
    (hdialogs : u.dialogs = x :: d.dialogs) (otp : List String) :
    ∃ t, step c service u (.submit 0 otp) = some t ∧ SignedIn Asks path d t ∧
      t.sent = ⟨path, (challenge c).slot, String.join otp⟩ :: u.sent := by
  refine ⟨tryToConnect service (sendAuth service { u with dialogs := d.dialogs } path (challenge c).slot (String.join otp))
    path, ?_, .tryToConnect ha hs hm (fun ask hask => ?_) hdialled rfl, rfl⟩
  · simp only [step, hdialogs, List.length_cons, Nat.zero_lt_succ, if_true, List.eraseIdx_cons_zero, sendOtp, hs, hc]
    rfl
  · obtain ⟨hask, hslot⟩ := (ha.asks_sendAuth_iff hl).mp hask
    exact hslot rfl (hasks ask hask)

/-- From wherever a run has led, a session whose inputs are the credentials and the first
static challenge at most is signed in by one signal, and by one code when it is asked for. -/
theorem sign_in_completes (hl : Lawful service Asks) (ha : Answering c service Asks) {start : Desk σ}
    {actions : List (Action σ)} (hstart : start.backend = {}) (hrun : run (step c service) start actions = some d)
    {id major minor : Nat} {topic : Option String} (hlive : (id, Topic.attentionRequired topic) ∈ d.backend.bus.live)
    (hs : d.backend.sessionPath = some path) (hmajor : major ∈ c.majors) (hminor : minor ∈ c.minors)
    (hasks : ∀ ask, Asks d.service path ask → isCredential ask.name = true ∨ ask = challenge c)
    (lookups : Nat → Credentials.Lookup) (otp : List String) :
    ∃ u, step c service d (.attentionRequired id major minor lookups) = some u ∧
      (¬Asks d.service path (challenge c) → SignedIn Asks path d u) ∧
      (Asks d.service path (challenge c) → dialled u.backend.calls = dialled d.backend.calls ∧
        u.dialogs = (path, (challenge c).slot) :: d.dialogs ∧ ∃ t, step c service u (.submit 0 otp) = some t ∧
          SignedIn Asks path d t ∧ t.sent = ⟨path, (challenge c).slot, String.join otp⟩ :: u.sent) := by
  have hb : Bound d.backend :=
    (allStates_of_invariant (I := fun d : Desk σ => Bound d.backend) (fun _ _ _ h => h.step)
      (hstart ▸ Bound.start) actions).last hrun
  obtain ⟨u, asked, hu, hbackend, hnodup, hmem, hleft, hdialogs⟩ := signal_answers hl ha hb hlive hs hmajor hminor lookups
  have hm : u.backend.module = true := hbackend ▸ hb.module id topic hlive
  have hsu : u.backend.sessionPath = some path := hbackend ▸ hs
  have hrest : ∀ ask, Asks u.service path ask → ask = challenge c ∧ Asks d.service path (challenge c) := by
    intro ask hask
    obtain ⟨hasked, hno⟩ := (hleft ask).mp hask
    obtain hcredential | rfl := hasks ask hasked
    · rw [hcredential] at hno
      cases hno
    · exact ⟨rfl, hasked⟩
  have hfilter : ∀ a, (a ∈ asked.filter fun a => a.name = "static_challenge") ↔ a = challenge c ∧ Asks d.service path a := by
    intro a
    rw [List.mem_filter, hmem, decide_eq_true_eq]
    constructor
    · rintro ⟨ha, hname⟩
      exact ⟨(hrest a ((hleft a).mpr ⟨ha, by rw [hname]; rfl⟩)).1, ha⟩
    · rintro ⟨rfl, ha⟩
      exact ⟨ha, rfl⟩
  refine ⟨_, hu, fun hno => ?_, fun hasked => ?_⟩
  · have hnone : (asked.filter fun a => a.name = "static_challenge") = [] :=
      List.eq_nil_iff_forall_not_mem.mpr fun a ha => hno (((hfilter a).mp ha).1 ▸ ((hfilter a).mp ha).2)
    exact .tryToConnect ha hsu hm (fun ask hask => hno (hrest ask hask).2) (hbackend ▸ rfl) (by rw [hdialogs, hnone]; rfl)
  · have hone : (asked.filter fun a => a.name = "static_challenge") = [challenge c] := by
      refine List.perm_singleton.mp ((List.perm_ext_iff_of_nodup (hnodup.filter _) (List.nodup_singleton _)).mpr fun a => ?_)
      rw [hfilter, List.mem_singleton]
      exact ⟨fun h => h.1, fun h => ⟨h, h ▸ hasked⟩⟩
    have hdialogs : u.dialogs = (path, (challenge c).slot) :: d.dialogs := by rw [hdialogs, hone]; rfl
    have hnotready : service.ready u.service path = false :=
      Bool.eq_false_iff.mpr fun hr => hl.ready hr _ ((hleft _).mpr ⟨hasked, rfl⟩)
    have hkept : tryToConnect service u path = u := by
      simp only [tryToConnect, OpenVpn3Backend.tryToConnect, hsu, hnotready, Bool.and_false, Bool.false_eq_true, if_false]
    rw [hkept]
    exact ⟨by rw [hbackend], hdialogs, submit_signs_in hl ha (hbackend ▸ hb.constants) hm hsu
      (fun ask hask => congrArg Ask.slot (hrest ask hask).1) (hbackend ▸ rfl) hdialogs otp⟩

theorem answering_queue (c : Constants) : Answering c (queueService c) required where
  typeGroups _ _ := ⟨_, rfl⟩
  check _ _ _ := ⟨_, rfl⟩
  fetch {q path a} h := by
    have hsome : ((q.1.find? fun x => x.1 = path ∧ x.2.slot = a.slot).map fun x => x.2.name).isSome = true := by
      rw [Option.isSome_map, List.find?_isSome]
      exact ⟨_, h, by simp⟩
    exact Option.isSome_iff_exists.mp hsome
  known {q _ _} h := q.2.2 _ h
  provide _ _ _ _ := ⟨_, rfl⟩
  setDco _ _ _ := ⟨_, rfl⟩
  ready {q path} h := by
    refine List.all_eq_true.mpr fun x hx => decide_eq_true fun hp => h x.2 ?_
    rw [← hp]
    exact hx

theorem sign_in_completes_prepared :
    ∃ d u t, run (step plain (queueService plain)) idle prepared = some d ∧
      step plain (queueService plain) d (.attentionRequired 1 1 1 fun _ => .raises) = some u ∧
        step plain (queueService plain) u (.submit 0 ["1", "2"]) = some t ∧ SignedIn required "/session" d t := by
  obtain ⟨d, hrun, hlive, hs, hq⟩ : ∃ d, run (step plain (queueService plain)) idle prepared = some d ∧
      (1, Topic.attentionRequired none) ∈ d.backend.bus.live ∧ d.backend.sessionPath = some "/session" ∧
      d.service = threeInputs :=
    ⟨_, rfl, by decide, rfl, rfl⟩
  have hasks : ∀ ask, required d.service "/session" ask → isCredential ask.name = true ∨ ask = challenge plain := by
    rw [hq]
    intro ask hask
    simp only [required, threeInputs, List.mem_cons, Prod.mk.injEq, true_and, List.not_mem_nil, or_false] at hask
    obtain rfl | rfl | rfl := hask
    · exact .inl rfl
    · exact .inl rfl
    · exact .inr rfl
  obtain ⟨u, hu, -, hasked⟩ := sign_in_completes (lawful_queue plain) (answering_queue plain) (rfl : idle.backend = {}) hrun hlive hs
    (by decide : 1 ∈ plain.majors) (by decide : 1 ∈ plain.minors) hasks (fun _ => .raises) ["1", "2"]
  obtain ⟨-, -, t, ht, hsigned, -⟩ := hasked (by rw [hq]; simp [required, threeInputs])
  exact ⟨d, u, t, hrun, hu, ht, hsigned⟩

end EovpnPro.SignIn
