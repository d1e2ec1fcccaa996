import EovpnPro.NmOperations
import EovpnPro.OpenVpn3Backend

namespace EovpnPro.AuditGate

open NmOperations NmWorker ProfileAudit Runs
open OpenVpn3Backend (OpenVpn3 Call ConnectEnv callBack record disconnectAgain)

variable {b c : NetworkManager}

def PassedStage : Stage → Prop
  | .enter config | .copy config => auditOvpnContent config = []
  | .beforeImport i | .importing i => auditOvpnContent i.copy.config = []
  | _ => True

/-- Every profile that waits, is worked on or was imported has passed the gate. -/
structure Passed (b : NetworkManager) : Prop where
  queued : ∀ job ∈ b.queue, PassedStage (firstStage job.op)
  running : ∀ job stage, b.worker = some (.busy job stage) → PassedStage stage
  imported : ∀ id i uuid, Event.addConnection id i uuid ∈ b.trace → auditOvpnContent i.copy.config = []

theorem Passed.moved {job : Job} {stage next : Stage} {events : List Event} (h : Passed b)
    (hw : b.worker = some (.busy job stage)) (hm : Moved b c job stage events next) : Passed c := by
  obtain ⟨ha, hw', ht, hf⟩ := hm
  have hs := h.running job stage hw
  have hq : c.queue = b.queue := congrArg (fun f => f.1) hf
  have key : PassedStage next ∧
      ∀ id i uuid, Event.addConnection id i uuid ∈ events → auditOvpnContent i.copy.config = [] := by
    cases ha with
    | entered | copied | mayImport => exact ⟨hs, fun _ _ _ he => absurd he List.not_mem_nil⟩
    | imported | notImported =>
        refine ⟨trivial, fun _ _ _ he => ?_⟩
        obtain ⟨-, rfl, -⟩ := Event.addConnection.inj (List.mem_singleton.mp he)
        exact hs
    | disconnected events he =>
        refine ⟨trivial, fun _ _ _ hi => ?_⟩
        obtain ⟨uuid, hd | hd⟩ := he _ hi <;> cases hd
    | notEntered | notCopied | notImporting | mayActivate | notActivating | activated | notActivated
    | kept | notKept | withdrawn | deleted | saved | cleanedUp =>
        exact ⟨trivial, fun _ _ _ he => by simp at he⟩
  refine ⟨hq ▸ h.queued, fun job' stage' hb => ?_, fun id i uuid hi => ?_⟩
  · rw [hw'] at hb
    obtain ⟨-, rfl⟩ := Worker.busy.inj (Option.some.inj hb)
    exact key.1
  · rw [ht] at hi
    exact (List.mem_append.mp hi).elim (key.2 id i uuid) (h.imported id i uuid)

theorem Passed.step {a : Action} (h : Passed b) (hc : step b a = some c) : Passed c := by
  have hkeep : ∀ {event : Event}, (∀ id i uuid, event ≠ .addConnection id i uuid) →
      ∀ id i uuid, Event.addConnection id i uuid ∈ event :: b.trace →
        auditOvpnContent i.copy.config = [] := by
    intro event hne id i uuid hi
    rcases List.mem_cons.mp hi with rfl | hi
    · exact absurd rfl (hne id i uuid)
    · exact h.imported id i uuid hi
  cases change_of_step hc with
  | quiet hm ht =>
      obtain ⟨hq, hw, -⟩ := Prod.mk.inj hm |>.imp_right Prod.mk.inj
      refine ⟨hq ▸ h.queued, hw ▸ h.running, ?_⟩
      rcases ht with ht | ⟨result, error, ht⟩ <;> rw [ht]
      · exact h.imported
      · exact hkeep fun _ _ _ he => by cases he
  | dispatched op hi hp =>
      refine ⟨fun job hj => ?_, fun job stage hw => ?_, hkeep fun _ _ _ he => by cases he⟩
      · rcases List.mem_append.mp hj with hj | hj
        · exact h.queued job hj
        · obtain rfl := List.mem_singleton.mp hj
          cases op with
          | connect config => exact hp config rfl
          | disconnect => trivial
      · cases hb : b.worker with
        | none => simp [dispatchOffUiThread, log, hb] at hw
        | some worker =>
            simp only [dispatchOffUiThread, log, hb, Option.getD_some] at hw
            exact h.running job stage (hb.trans hw)
  | flagged => exact ⟨h.queued, h.running, hkeep fun _ _ _ he => by cases he⟩
  | suppressed => exact ⟨h.queued, h.running, h.imported⟩
  | cleared => exact ⟨fun job hj => absurd hj List.not_mem_nil, h.running, h.imported⟩
  | retired e hw hq => exact ⟨h.queued, fun job stage hb => (by cases hb), h.imported⟩
  | taken e job rest hw hq =>
      refine ⟨fun j hj => h.queued j (hq ▸ List.mem_cons_of_mem job hj), fun j stage hb => ?_,
        hkeep fun _ _ _ he => by cases he⟩
      obtain ⟨rfl, rfl⟩ := Worker.busy.inj (Option.some.inj hb)
      exact h.queued job (hq ▸ List.mem_cons_self)
  | moved e job stage events next hw hm => exact h.moved hw hm
  | finished e job outcome hw =>
      have hl : Passed (log { b with worker := some .looping } (.ended job.id outcome)) :=
        ⟨h.queued, fun j stage hb => (by cases hb), hkeep fun _ _ _ he => by cases he⟩
      simp only [finish]
      split
      · split
        · exact hl
        · exact ⟨hl.queued, hl.running, hl.imported⟩
      · exact hl

theorem passed_run (actions : List Action) : AllStates step Passed {} actions :=
  allStates_of_invariant (fun _ _ _ h hc => h.step hc)
    ⟨fun _ hj => absurd hj List.not_mem_nil, fun _ _ hw => (by cases hw),
      fun _ _ _ hi => absurd hi List.not_mem_nil⟩ actions

theorem mem_calls_callBack {b : OpenVpn3} {result : Events.Result} {error : Option String}
    {again : Nat} {name : String}
    {document : List Char} (h : Call.importConfig name document ∈ (callBack b result error again).calls) :
    Call.importConfig name document ∈ b.calls := by
  induction again with
  | zero => simpa [callBack, record] using h
  | succ n ih =>
      simp only [callBack, Function.iterate_succ_apply'] at h ih
      apply ih
      simp only [disconnectAgain] at h
      split at h <;> simpa [record] using h

theorem importConfig_of_connect {b : OpenVpn3} (hb : b.calls = []) {e : ConnectEnv} {name : String}
    {document : List Char} (h : Call.importConfig name document ∈ (OpenVpn3Backend.connect b e).calls) :
    auditOvpnContent e.config = [] ∧ configContent e.config e.ca = some document := by
  simp only [OpenVpn3Backend.connect] at h
  split at h
  · have hm := mem_calls_callBack h
    rw [hb] at hm
    exact absurd hm List.not_mem_nil
  · rename_i hs
    refine ⟨not_not.mp hs, ?_⟩
    split at h
    · simp [record, hb] at h
    · rename_i composed hc
      rw [hc]
      have hd : Call.importConfig name document = .importConfig e.name composed := by
        split at h
        · simpa only [record, hb, List.mem_singleton] using h
        · split at h <;> simpa [record, hb] using h
      exact congrArg some (Call.importConfig.inj hd).2.symm

def Covered (document : List Char) : Prop := auditOvpnContent (some document) = []

/-- On both backends, a document that reaches the native import is covered by the
gate exactly when the certificate file read into it reports nothing. -/
theorem covered_iff (actions : List Action) (b : OpenVpn3) (e : ConnectEnv) (name : String)
    (document : List Char) :
    AllStates step (fun b => ∀ id i uuid, Event.addConnection id i uuid ∈ b.trace →
      (Covered i.copy.document ↔ audit i.copy.ca.text = [])) {} actions ∧
    (Call.importConfig name document ∈ (OpenVpn3Backend.connect { b with calls := [] } e).calls →
      (Covered document ↔ audit e.ca.text = [])) := by
  constructor
  · refine (passed_run actions).mono fun b hb id i uuid hi => ?_
    exact audit_copied_iff (hb.imported id i uuid hi) i.copy.written
  · intro h
    obtain ⟨hg, hd⟩ := importConfig_of_connect rfl h
    exact audit_configContent_iff hg hd

def cleanProfile : List Char := "client\nremote vpn.example 1194\n".toList

def closingCertificate : CaSetting := .file (some "cert\n</ca>\nup /tmp/run.sh\n<ca>\n".toList)

def certificateRun : List Action :=
  [.connect (some cleanProfile), .worker {}, .worker {}, .worker { ca := closingCertificate }, .worker {},
    .worker { uuid := some "uuid" }]

def uncovered : Event → Bool
  | .addConnection _ i _ => decide (auditOvpnContent (some i.copy.document) ≠ [])
  | _ => false

theorem certificateRun_uncovered :
    (run step {} certificateRun).any (fun b => b.trace.any uncovered) = true := by
  decide

theorem certificate_adds_directive :
    (¬ ∀ actions, AllStates step (fun b => ∀ id i uuid, Event.addConnection id i uuid ∈ b.trace →
      Covered i.copy.document) {} actions) ∧
    ¬ ∀ (b : OpenVpn3) (e : ConnectEnv) (name : String) (document : List Char),
      Call.importConfig name document ∈ (OpenVpn3Backend.connect { b with calls := [] } e).calls →
        Covered document := by
  constructor
  · intro h
    obtain ⟨b, hb, ht⟩ := (Option.any_eq_true _ _).mp certificateRun_uncovered
    obtain ⟨event, he, hu⟩ := List.any_eq_true.mp ht
    cases event with
    | addConnection id i uuid => exact of_decide_eq_true hu ((h certificateRun).last hb id i uuid he)
    | dispatched | cancelCalled | started | activateConnection | disconnect | deleteConnection
    | ended | callback =>
        cases hu
  · intro h
    have hc := h {} { config := some cleanProfile, ca := closingCertificate } "" _ List.mem_cons_self
    revert hc
    simp only [Covered]
    decide

end EovpnPro.AuditGate
