import EovpnPro.NmOperations

namespace EovpnPro.PrivateCopies

open Events NmOperations NmWorker ProfileAudit Runs

variable {b c : NetworkManager} {job : Job} {e : Answers}

def holdsCopy : Stage → Bool
  | .beforeImport _ | .importing _ | .beforeActivation _ | .activating _ | .afterActivation _
  | .withdrawing _ | .deleting _ | .saving _ | .cleaningUp _ => true
  | .enter _ | .copy _ | .disconnecting | .ended _ => false

def holder : Option Worker → Option Nat
  | some (.busy job stage) => if holdsCopy stage then some job.id else none
  | some .looping | none => none

def copies (b : NetworkManager) : Option Nat × List Nat := (b.tempConfigPath, b.tempFiles)

def held : Option Nat → Option Nat × List Nat
  | some id => (some id, [id])
  | none => (none, [])

/-- There is a copy just while an operation holds it, its own, and the backend knows of it. -/
def Tidy (b : NetworkManager) : Prop := copies b = held (holder b.worker)

section Stages

variable {stage go stopped : Stage}

theorem tidy_unlessCancelled (h : copies b = held (if holdsCopy stage then some job.id else none))
    (hgo : holdsCopy go = holdsCopy stage) (hstop : holdsCopy stopped = holdsCopy stage) :
    Tidy (unlessCancelled b job go stopped) := by
  cases hc : b.cancel with
  | true =>
      rw [unlessCancelled, hc, Tidy, toStage, holder, if_pos rfl, hstop]
      exact h
  | false =>
      rw [unlessCancelled, hc, Tidy, toStage, holder, if_neg Bool.false_ne_true, hgo]
      exact h

def written (config : Option (List Char)) (e : Answers) : Option PrivateCopy :=
  if e.written then privateCopy config e.ca else none

theorem tidy_copyProfile (config : Option (List Char)) (h : copies b = held none) :
    Tidy (copyProfile b job config e) ↔ (e.created = true → written config e = none → e.removed = true) := by
  obtain ⟨hpath, hfiles⟩ := Prod.mk.inj h
  rw [copyProfile, ← written]
  cases hc : e.created with
  | false => exact iff_of_true h fun ht => Bool.noConfusion ht
  | true =>
      cases hw : written config e with
      | some copy =>
          refine iff_of_true ?_ (fun _ hn => by cases hn)
          change (some job.id, job.id :: b.tempFiles) = held (some job.id)
          rw [hfiles]
          rfl
      | none =>
          -- What could not be removed stays, and the backend still knows of it.
          cases hr : e.removed with
          | true => exact iff_of_true (Prod.ext rfl hfiles) fun _ _ => rfl
          | false =>
              refine iff_of_false (fun ht => ?_) fun hi => Bool.noConfusion (hi rfl rfl)
              cases (Prod.mk.inj ht).1

theorem tidy_cleanUp (outcome : Outcome) (h : copies b = held (some job.id)) :
    Tidy (cleanUp b job outcome e) ↔ e.removed = true := by
  obtain ⟨hpath, hfiles⟩ := Prod.mk.inj h
  simp only [cleanUp, hpath, hfiles, List.mem_singleton, if_true]
  rw [Tidy, copies, toStage]
  cases e.removed <;> simp [holder, holdsCopy, held]

/-- `os.remove` succeeds where this stage calls it: when the copy comes to nothing, and
in the `finally` block. -/
def RemovesIn (e : Answers) : Stage → Prop
  | .copy config => e.created = true → written config e = none → e.removed = true
  | .cleaningUp _ => e.removed = true
  | _ => True

theorem tidy_stepStage (h : Tidy b) (hw : b.worker = some (.busy job stage)) :
    Tidy (stepStage b job e stage) ↔ RemovesIn e stage := by
  rw [Tidy, hw, holder] at h
  cases stage with
  | enter config => exact iff_of_true (tidy_unlessCancelled h rfl rfl) trivial
  | copy config => exact tidy_copyProfile config h
  | beforeImport i => exact iff_of_true (tidy_unlessCancelled h rfl rfl) trivial
  | importing i =>
      refine iff_of_true ?_ trivial
      simp only [stepStage, addConnection]
      split
      · exact h
      · cases e.uuid with
        | none => exact h
        | some uuid =>
            dsimp only
            split <;> exact h
  | beforeActivation uuid => exact iff_of_true (tidy_unlessCancelled h rfl rfl) trivial
  | activating uuid =>
      refine iff_of_true ?_ trivial
      simp only [stepStage, activateConnection]
      split
      · exact h
      · split <;> exact h
  | afterActivation uuid => exact iff_of_true (tidy_unlessCancelled h rfl rfl) trivial
  | withdrawing | deleting | saving => exact iff_of_true h trivial
  | cleaningUp outcome => exact tidy_cleanUp outcome h
  | disconnecting =>
      refine iff_of_true ?_ trivial
      simp only [stepStage, disconnectBlocking]
      split
      · exact (kept_foldl_disconnect (f := copies) (fun _ _ => rfl) job.id _ b).trans h
      · split <;> exact h
  | ended outcome =>
      refine iff_of_true ?_ trivial
      simp only [stepStage, finish]
      split
      · split <;> exact h
      · exact h

end Stages

/-- `os.remove` succeeds where this step calls it. -/
def Removes (b : NetworkManager) : Action → Prop
  | .worker e =>
      match b.worker with
      | some (.busy _ stage) => RemovesIn e stage
      | some .looping | none => True
  | _ => True

theorem Tidy.dispatched (h : Tidy b) (op : Op) : Tidy (dispatchOffUiThread b op) := by
  have hholder : holder (some (b.worker.getD .looping)) = holder b.worker := by
    cases b.worker <;> rfl
  exact h.trans (congrArg held hholder.symm)

theorem tidy_step {a : Action} (h : Tidy b) (hc : step b a = some c) : Tidy c ↔ Removes b a := by
  cases step_cases hc with
  | refused | flagged | suppressed | cleared | watching | unwatching | heard | unheard | answered
    | unanswered | notified => exact iff_of_true h trivial
  | connecting config => exact iff_of_true (h.dispatched (.connect config)) trivial
  | disconnecting => exact iff_of_true (h.dispatched .disconnect) trivial
  | retired e hw hq =>
      rw [Removes, hw]
      rw [Tidy, hw] at h
      exact iff_of_true h trivial
  | taken e job rest hw hq =>
      obtain ⟨id, op⟩ := job
      rw [Removes, hw]
      rw [Tidy, hw] at h
      cases op <;> exact iff_of_true h trivial
  | worked e job stage hw =>
      rw [Removes, hw]
      exact tidy_stepStage h hw

/-- However the worker and the GTK thread take turns, there is a copy only while an operation
is between making it and its `finally` block, its own and one that the backend knows of,
throughout exactly the runs in which each file that is to go can be removed. -/
theorem copies_tidy_iff (actions : List Action) :
    AllStates step Tidy {} actions ↔ AllSteps step Removes {} actions :=
  allStates_iff_allSteps (fun _ h => h) (fun _ _ _ h hc => (tidy_step h hc).mpr)
    (fun _ _ _ h hc => (tidy_step h hc).mp) actions rfl

end EovpnPro.PrivateCopies
