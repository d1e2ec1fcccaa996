import EovpnPro.NmSystem

namespace EovpnPro.OrphanedProfiles

open NmNative NmSystem NmWorker Runs

variable {sys : Service} {p : Profile} {s t : System} {job : Job} {stage : Stage} {e : Answers}
  {n : Natives}

def Left (s : System) (p : Profile) : Prop := p ∈ s.sys.profiles ∧ p.uuid ∈ s.created

/-- While no operation runs, `self.uuid` names every profile that is left. -/
def NoOrphans (s : System) : Prop :=
  (∀ job stage, s.nm.worker ≠ some (.busy job stage)) → ∀ p, Left s p → s.nm.uuid = some p.uuid

/-- The condition of one step: an import finds no earlier profile left under
`self.uuid` and hears of the profile it adds, and a deletion after which `self.uuid` is
cleared takes its profile away. -/
def Accounted (s : System) : NmSystem.Action → Prop
  | .nm (.worker e) n => ∀ job stage, s.nm.worker = some (.busy job stage) →
      match stage with
      | .importing i => e.raised = none → (∀ p, Left s p → s.nm.uuid ≠ some p.uuid) ∧
          ((added s.sys i.username i.password n.addition).isSome = true →
            n.addition.toCall.ending = .finished)
      | .deleting uuid => ∀ p ∈ s.sys.profiles, p.uuid = uuid → Removes n.deletion p
      | .disconnecting => ∀ p ∈ s.sys.profiles, s.nm.uuid = some p.uuid →
          isVpnActivated s.sys p.uuid n.client ≠ -1 → Removes n.deletion p
      | _ => True
  | _ => True

theorem profiles_takeDown (rounds : List Round) : (takeDown sys rounds).1.profiles = sys.profiles := by
  induction rounds generalizing sys with
  | nil => rfl
  | cons r rest ih =>
      simp only [takeDown]
      split
      · rfl
      · split
        · rfl
        · exact ih.trans (profiles_disconnect _ _)

theorem subset_deleteConnection (uuid : String) (c : Call) :
    (deleteConnection sys uuid c).1.profiles ⊆ sys.profiles := by
  rcases deleteConnection_cases sys uuid c with h | ⟨p, -, -, -, h⟩ <;> rw [h]
  · exact List.Subset.refl _
  · exact fun q hq => (List.mem_filter.mp hq).1

theorem subset_deleteAllVpnConnections (client : Bool) (calls : String → Call) :
    (deleteAllVpnConnections sys client calls).profiles ⊆ sys.profiles := by
  simp only [deleteAllVpnConnections]
  split
  · generalize (sys.profiles.filter connectionIsManaged).map Profile.uuid = uuids
    induction uuids generalizing sys with
    | nil => exact List.Subset.refl _
    | cons uuid uuids ih => exact fun q hq => subset_deleteConnection uuid _ (ih hq)
  · exact List.Subset.refl _

theorem profiles_activateConnection (uuid : String) (c : Call) :
    (NmNative.activateConnection sys uuid c).1.profiles = sys.profiles := by
  rcases activateConnection_cases sys uuid c with h | ⟨p, hn, -, h⟩ <;> rw [h]
  rfl

structure Tidy (s : System) : Prop where
  owned : Owned s
  named : ∀ p, Left s p → s.nm.uuid = some p.uuid

theorem Tidy.noOrphans (h : Tidy s) : NoOrphans s := fun _ => h.named

theorem Tidy.of_subset (h : Tidy s) (ht : Owned t) (hp : t.sys.profiles ⊆ s.sys.profiles)
    (hc : t.created = s.created) (hu : t.nm.uuid = s.nm.uuid) : Tidy t :=
  ⟨ht, fun p hl => hu.trans (h.named p ⟨hp hl.1, hc ▸ hl.2⟩)⟩

theorem Tidy.imported (h : Tidy s) {i : Import} (hw : s.nm.worker = some (.busy job (.importing i)))
    (hg : Accounted s (.nm (.worker e) n)) : Tidy (stepWorker s job (.importing i) e n) := by
  refine ⟨h.owned.inside e n hw, fun p hl => ?_⟩
  obtain ⟨hp, hc⟩ := hl
  simp only [stepWorker, uuid_stepStage, handleAfter, addedBy, serve] at hp hc ⊢
  cases hr : e.raised with
  | some message =>
      simp only [hr, Option.isSome_some, if_true, Option.map_none, Option.toList_none, List.nil_append]
        at hp hc ⊢
      exact h.named p ⟨hp, hc⟩
  | none =>
      obtain ⟨hnone, hfinished⟩ := hg job _ hw hr
      have hgone : ∀ q, ¬ Left s q := fun q hq => hnone q hq (h.named q hq)
      simp only [hr, Option.isSome_none, Bool.false_eq_true, if_false] at hp hc ⊢
      rcases addConnection_cases s.sys i.username i.password n.addition
        with ⟨hadd, ha⟩ | ⟨q, hn, hadd, ha⟩ <;> rw [ha] at hp ⊢ <;> rw [hadd] at hc
      · exact absurd ⟨hp, hc⟩ (hgone p)
      · rw [hadd] at hfinished
        rw [hfinished rfl, if_pos rfl]
        rcases List.mem_cons.mp hp with rfl | hp
        · rfl
        · rcases List.mem_cons.mp hc with hu | hc
          · exact absurd (hu ▸ List.mem_map_of_mem hp) hn
          · exact absurd ⟨hp, hc⟩ (hgone p)

theorem gone_deleteConnection (h : Tidy s) {uuid : String} (hu : s.nm.uuid = some uuid) {c : Call}
    (hsub : sys.profiles ⊆ s.sys.profiles) (hg : ∀ p ∈ s.sys.profiles, p.uuid = uuid → Removes c p) :
    ∀ p ∈ (deleteConnection sys uuid c).1.profiles, p.uuid ∉ s.created := by
  intro p hp hc
  have hsys : p ∈ sys.profiles := subset_deleteConnection uuid c hp
  obtain rfl := Option.some.inj (hu.symm.trans (h.named p ⟨hsub hsys, hc⟩))
  exact (mem_deleteConnection_iff hsys c).mp hp (hg p (hsub hsys) rfl)

theorem Tidy.deleted (h : Tidy s) {uuid : String} (hw : s.nm.worker = some (.busy job (.deleting uuid)))
    (hg : Accounted s (.nm (.worker e) n)) : Tidy (stepWorker s job (.deleting uuid) e n) := by
  refine ⟨h.owned.inside e n hw, fun p hl => ?_⟩
  have hu : s.nm.uuid = some uuid := h.owned.held job _ uuid hw rfl
  exact absurd hl.2 (gone_deleteConnection h hu (List.Subset.refl _) (hg job _ hw) p hl.1)

theorem Tidy.disconnected (h : Tidy s) (hw : s.nm.worker = some (.busy job .disconnecting))
    (hg : Accounted s (.nm (.worker e) n)) : Tidy (stepWorker s job .disconnecting e n) := by
  refine ⟨h.owned.inside e n hw, fun p hl => ?_⟩
  obtain ⟨hp, hc⟩ := hl
  simp only [stepWorker, uuid_stepStage, handleAfter, addedBy, serve] at hp hc ⊢
  have hc : p.uuid ∈ s.created := hc
  cases hu : s.nm.uuid with
  | none =>
      simp only [hu] at hp ⊢
      rw [profiles_takeDown] at hp
      have hn := h.named p ⟨hp, hc⟩
      rw [hu] at hn
      cases hn
  | some uuid =>
      simp only [hu] at hp ⊢
      by_cases ha : isVpnActivated s.sys uuid n.client = -1
      · simp only [ha, if_true, Bool.false_eq_true, if_false] at hp ⊢
        exact hu.symm.trans (h.named p ⟨hp, hc⟩)
      · rw [if_neg ha] at hp
        refine absurd hc (gone_deleteConnection h hu ?_ (fun q hq hqu => ?_) p hp)
        · rw [profiles_disconnect]
          exact List.Subset.refl _
        · obtain rfl := hqu
          exact hg job _ hw q hq hu ha

theorem Tidy.inside (h : Tidy s) (hw : s.nm.worker = some (.busy job stage))
    (hg : Accounted s (.nm (.worker e) n)) : Tidy (stepWorker s job stage e n) := by
  have ho := h.owned.inside e n hw
  cases stage with
  | importing i => exact h.imported hw hg
  | deleting uuid => exact h.deleted hw hg
  | disconnecting => exact h.disconnected hw hg
  | activating uuid =>
      refine h.of_subset ho ?_ rfl (uuid_stepStage _ _ _ _)
      simp only [stepWorker, serve]
      split
      · exact List.Subset.refl _
      · rw [profiles_activateConnection]
        exact List.Subset.refl _
  | withdrawing uuid =>
      refine h.of_subset ho ?_ rfl (uuid_stepStage _ _ _ _)
      simp only [stepWorker, serve, profiles_disconnect]
      exact List.Subset.refl _
  | enter | copy | beforeImport | beforeActivation | afterActivation | saving | cleaningUp | ended =>
      exact h.of_subset ho (List.Subset.refl _) rfl (uuid_stepStage _ _ _ _)

theorem Tidy.step {a : NmSystem.Action} (h : Tidy s) (hg : Accounted s a)
    (ht : NmSystem.step s a = some t) : Tidy t := by
  have ho := h.owned.step ht
  cases change_of_step ht with
  | outside n hi hs => exact h.of_subset ho (List.Subset.refl _) rfl (uuid_outside hs hi).1
  | inside e n job stage hw => exact h.inside hw hg
  | deletedAll client calls => exact h.of_subset ho (subset_deleteAllVpnConnections client calls) rfl rfl
  | external sys hf =>
      refine ⟨ho, fun p hl => ?_⟩
      obtain ⟨q, hq, hu⟩ := List.mem_map.mp (hf p hl.1 hl.2)
      rw [← hu]
      exact h.named q ⟨hq, hu ▸ hl.2⟩

theorem tidy_init (sys : Service) : Tidy { sys } :=
  ⟨owned_init sys, fun _ hl => absurd hl.2 List.not_mem_nil⟩

/-- The running operation can end with the profiles and `self.uuid` as they are. -/
def CanEnd (s : System) : Prop :=
  ∃ more t, run NmSystem.step s more = some t ∧ t.nm.worker = some .looping ∧
    t.sys = s.sys ∧ t.created = s.created ∧ t.nm.uuid = s.nm.uuid

theorem CanEnd.of_step {a : NmSystem.Action} (h : CanEnd t) (ht : NmSystem.step s a = some t)
    (hs : t.sys = s.sys) (hc : t.created = s.created) (hu : t.nm.uuid = s.nm.uuid) : CanEnd s := by
  obtain ⟨more, last, hr, hw, hs', hc', hu'⟩ := h
  refine ⟨a :: more, last, ?_, hw, hs'.trans hs, hc'.trans hc, hu'.trans hu⟩
  rw [run, ht]
  exact hr

theorem canEnd_ended {outcome : Outcome} (hw : s.nm.worker = some (.busy job (.ended outcome))) :
    CanEnd s := by
  refine ⟨[.nm (.worker {}) {}], stepWorker s job (.ended outcome) {} {}, ?_, ?_, rfl, rfl,
    uuid_stepStage _ _ _ _⟩
  · rw [run, step_inside hw]
    rfl
  · have hm := (NmOperations.trace_finish s.nm job outcome).2
    simp only [NmOperations.machine, Prod.mk.injEq] at hm
    exact hm.2.1

theorem canEnd_cleaningUp {outcome : Outcome} (hw : s.nm.worker = some (.busy job (.cleaningUp outcome))) :
    CanEnd s := by
  have hnext : (stepWorker s job (.cleaningUp outcome) {} {}).nm.worker =
      some (.busy job (.ended outcome)) := by
    simp only [stepWorker, serve, stepStage, cleanUp]
    split
    · split <;> rfl
    · rfl
  exact (canEnd_ended hnext).of_step (step_inside hw {} {}) rfl rfl (uuid_stepStage _ _ _ _)

theorem canEnd_activating {uuid : String} (hw : s.nm.worker = some (.busy job (.activating uuid))) :
    CanEnd s := by
  have hnext : (stepWorker s job (.activating uuid) { raised := some "" } {}).nm.worker =
      some (.busy job (.cleaningUp (.failed ""))) := rfl
  exact (canEnd_cleaningUp hnext).of_step (step_inside hw _ _) rfl rfl (uuid_stepStage _ _ _ _)

theorem canEnd_beforeActivation {uuid : String}
    (hw : s.nm.worker = some (.busy job (.beforeActivation uuid))) : CanEnd s := by
  have hnext : (stepWorker s job (.beforeActivation uuid) {} {}).nm.worker =
      some (.busy job (if s.nm.cancel then .cleaningUp .cancelled else .activating uuid)) := rfl
  refine CanEnd.of_step (t := stepWorker s job (.beforeActivation uuid) {} {}) ?_ (step_inside hw _ _)
    rfl rfl (uuid_stepStage _ _ _ _)
  cases hc : s.nm.cancel with
  | true =>
      rw [hc, if_pos rfl] at hnext
      exact canEnd_cleaningUp hnext
  | false =>
      rw [hc, if_neg Bool.false_ne_true] at hnext
      exact canEnd_activating hnext

theorem canEnd_imported (i : Import) (e : Answers) (n : Natives) :
    CanEnd (stepWorker s job (.importing i) e n) := by
  have hnext : ∀ e' : Answers, ∃ next,
      (NmWorker.addConnection s.nm job i e').worker = some (.busy job next) ∧
      ((∃ uuid, next = .beforeActivation uuid) ∨ ∃ outcome, next = .cleaningUp outcome) := by
    intro e'
    simp only [NmWorker.addConnection]
    split
    · exact ⟨_, rfl, .inr ⟨_, rfl⟩⟩
    · split
      · split
        · exact ⟨_, rfl, .inr ⟨_, rfl⟩⟩
        · exact ⟨_, rfl, .inl ⟨_, rfl⟩⟩
      · exact ⟨_, rfl, .inr ⟨_, rfl⟩⟩
  obtain ⟨next, hw, ⟨uuid, rfl⟩ | ⟨outcome, rfl⟩⟩ := hnext (serve s.sys s.nm.uuid e n (.importing i)).2
  · exact canEnd_beforeActivation hw
  · exact canEnd_cleaningUp hw

theorem not_allStates_of_left (h : CanEnd s) (hl : Left s p) (hu : s.nm.uuid ≠ some p.uuid) :
    ∃ more, ¬ AllStates NmSystem.step NoOrphans s more := by
  obtain ⟨more, t, hr, hw, hs, hc, hn⟩ := h
  refine ⟨more, fun hall => hu ?_⟩
  rw [← hn]
  refine hall.last hr (fun job stage hb => ?_) p ?_
  · rw [hw] at hb
    cases hb
  · rw [Left, hs, hc]
    exact hl

theorem left_of_imported {i : Import} (hr : e.raised = none)
    (hg : ¬ ((∀ p, Left s p → s.nm.uuid ≠ some p.uuid) ∧
      ((added s.sys i.username i.password n.addition).isSome = true →
        n.addition.toCall.ending = .finished))) :
    ∃ p, Left (stepWorker s job (.importing i) e n) p ∧
      (stepWorker s job (.importing i) e n).nm.uuid ≠ some p.uuid := by
  simp only [Left, stepWorker, uuid_stepStage, handleAfter, addedBy, serve, hr, Option.isSome_none,
    Bool.false_eq_true, if_false]
  rcases addConnection_cases s.sys i.username i.password n.addition
    with ⟨hadd, ha⟩ | ⟨q, hn, hadd, ha⟩ <;> rw [ha, hadd] <;> rw [hadd] at hg
  · simp only [Option.isSome_none, Bool.false_eq_true, false_implies, and_true] at hg
    push Not at hg
    obtain ⟨p, hl, -⟩ := hg
    exact ⟨p, ⟨hl.1, List.mem_append_right _ hl.2⟩, by simp⟩
  · simp only [Option.isSome_some, forall_const] at hg
    by_cases he : n.addition.toCall.ending = .finished
    · simp only [he, and_true] at hg
      push Not at hg
      obtain ⟨p, hl, -⟩ := hg
      refine ⟨p, ⟨List.mem_cons_of_mem q hl.1, List.mem_append_right _ hl.2⟩, fun hu => hn ?_⟩
      rw [if_pos he] at hu
      rw [Option.some.inj hu]
      exact List.mem_map_of_mem hl.1
    · exact ⟨q, ⟨List.mem_cons_self, List.mem_append_left _ (List.mem_singleton_self _)⟩, by simp [he]⟩

theorem left_of_deleted (h : Owned s) {uuid : String} (hw : s.nm.worker = some (.busy job (.deleting uuid)))
    (hg : ¬ ∀ p ∈ s.sys.profiles, p.uuid = uuid → Removes n.deletion p) :
    ∃ p, Left (stepWorker s job (.deleting uuid) e n) p ∧
      (stepWorker s job (.deleting uuid) e n).nm.uuid ≠ some p.uuid := by
  push Not at hg
  obtain ⟨p, hp, rfl, hr⟩ := hg
  have hc : p.uuid ∈ s.created := h.handle _ (h.held job _ _ hw rfl)
  refine ⟨p, ⟨(mem_deleteConnection_iff hp _).mpr hr, hc⟩, ?_⟩
  simp [stepWorker, uuid_stepStage, handleAfter]

theorem left_of_disconnected (h : Owned s)
    (hg : ¬ ∀ p ∈ s.sys.profiles, s.nm.uuid = some p.uuid →
      isVpnActivated s.sys p.uuid n.client ≠ -1 → Removes n.deletion p) :
    ∃ p, Left (stepWorker s job .disconnecting e n) p ∧
      (stepWorker s job .disconnecting e n).nm.uuid ≠ some p.uuid := by
  push Not at hg
  obtain ⟨p, hp, hu, ha, hr⟩ := hg
  have hstill : p ∈ (NmNative.disconnect s.sys p.uuid n.deactivation).1.profiles := by
    rwa [profiles_disconnect]
  refine ⟨p, ⟨?_, h.handle _ hu⟩, ?_⟩
  · simp only [stepWorker, serve, hu, if_neg ha]
    exact (mem_deleteConnection_iff hstill _).mpr hr
  · simp [stepWorker, uuid_stepStage, handleAfter, serve, hu, ha]

/-- Wherever a step breaks the condition, the run can go on to an orphan. -/
theorem not_allStates_of_not_accounted (h : Owned s) {a : NmSystem.Action} (hg : ¬ Accounted s a) :
    ∃ more, ¬ AllStates NmSystem.step NoOrphans s (a :: more) := by
  have hgo : ∀ {job stage e n}, s.nm.worker = some (.busy job stage) → CanEnd (stepWorker s job stage e n) →
      (∃ p, Left (stepWorker s job stage e n) p ∧ (stepWorker s job stage e n).nm.uuid ≠ some p.uuid) →
      ∃ more, ¬ AllStates NmSystem.step NoOrphans s (.nm (.worker e) n :: more) := by
    intro job stage e n hw hend ⟨p, hl, hu⟩
    obtain ⟨more, hn⟩ := not_allStates_of_left hend hl hu
    exact ⟨more, fun hall => hn (hall.2 _ (step_inside hw e n))⟩
  cases a with
  | deleteAllConnections | external => exact absurd trivial hg
  | nm a n =>
      cases a with
      | worker e =>
          simp only [Accounted] at hg
          push Not at hg
          obtain ⟨job, stage, hw, hg⟩ := hg
          cases stage with
          | importing i =>
              have hr : e.raised = none := by
                by_contra hr
                exact hg fun h => absurd h hr
              exact hgo hw (canEnd_imported i e n) (left_of_imported hr fun hok => hg fun _ => hok)
          | deleting uuid => exact hgo hw (canEnd_cleaningUp rfl) (left_of_deleted h hw hg)
          | disconnecting =>
              have hnext : ∃ outcome, (stepWorker s job .disconnecting e n).nm.worker =
                  some (.busy job (.ended outcome)) := by
                obtain ⟨events, next, hm⟩ := NmOperations.moved_disconnectBlocking s.nm job
                  (serve s.sys s.nm.uuid e n .disconnecting).2
                have hw' := hm.worker
                cases hm.advance with
                | disconnected => exact ⟨_, hw'⟩
              obtain ⟨outcome, hnext⟩ := hnext
              exact hgo hw (canEnd_ended hnext) (left_of_disconnected h hg)
          | enter | copy | beforeImport | beforeActivation | activating | afterActivation | withdrawing
          | saving | cleaningUp | ended => exact absurd trivial hg
      | connect | disconnect | cancelFlag | cancelSuppress | cancelClear | startWatch | stopWatch
      | signal | idleCallback => exact absurd trivial hg

/-- A run whose imports and deletions are all accounted for leaves no orphan, and
wherever a run breaks this it can go on to leave one. -/
theorem no_orphans_iff_accounted (sys : Service) (actions : List NmSystem.Action) :
    (AllSteps NmSystem.step Accounted { sys } actions → AllStates NmSystem.step NoOrphans { sys } actions) ∧
    ∀ s a, run NmSystem.step { sys } actions = some s → ¬ Accounted s a →
      ∃ more, ¬ AllStates NmSystem.step NoOrphans s (a :: more) := by
  constructor
  · intro hg
    have htidy := allStates_of_guarded (fun _ _ _ h hg ht => h.step hg ht) (tidy_init sys) hg
    exact htidy.mono fun _ h => h.noOrphans
  · intro s a hr hg
    have howned : AllStates NmSystem.step Owned { sys } actions :=
      allStates_of_invariant (fun _ _ _ h ht => h.step ht) (owned_init sys) actions
    exact not_allStates_of_not_accounted (howned.last hr) hg

def refusedCandidate (uuid : String) (hn : uuid ≠ "") : List NmSystem.Action :=
  let imported := { uuid, connectionId := some "vpn", vpnData := some [], named := hn }
  let n := { addition := { imported := some imported }, activation := { ending := .refused } }
  .nm (.connect (some [])) {} :: List.replicate 10 (.nm (.worker {}) n)

/-- A candidate is refused, it is disconnected, and the next one is tried. -/
def twoCandidates : List NmSystem.Action :=
  refusedCandidate "first" (by decide) ++ .nm .disconnect {} :: List.replicate 4 (.nm (.worker {}) {}) ++
    refusedCandidate "second" (by decide)

theorem twoCandidates_left :
    (run NmSystem.step {} twoCandidates).map (fun s => (s.nm.worker, s.nm.uuid, s.created,
      s.sys.profiles.map Profile.uuid)) =
      some (none, some "second", ["second", "first"], ["second", "first"]) := by
  decide

theorem orphan_left : ¬ ∀ sys actions, AllStates NmSystem.step NoOrphans { sys } actions := by
  intro h
  obtain ⟨s, hs, heq⟩ := Option.map_eq_some_iff.mp twoCandidates_left
  simp only [Prod.mk.injEq] at heq
  obtain ⟨hw, hu, hc, hp⟩ := heq
  have hidle : ∀ job stage, s.nm.worker ≠ some (.busy job stage) := by
    intro job stage hb
    rw [hw] at hb
    cases hb
  have hmem : "first" ∈ s.sys.profiles.map Profile.uuid := by
    rw [hp]
    decide
  obtain ⟨p, hmem, hname⟩ := List.mem_map.mp hmem
  have hn := (h {} twoCandidates).last hs hidle p ⟨hmem, by rw [hname, hc]; decide⟩
  rw [hu, hname] at hn
  exact absurd (Option.some.inj hn) (by decide)

end EovpnPro.OrphanedProfiles
