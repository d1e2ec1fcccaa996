import EovpnPro.NmWorker

namespace EovpnPro.NmOperations

open Events NmWorker ProfileAudit Runs

variable {b c : NetworkManager} {job : Job} {stage : Stage} {e : Answers}

/-- The transitions inside an operation: the stage it leaves, what it adds to the
trace, and the stage it enters. -/
inductive Advance (cancel : Bool) (id : Nat) : Stage → List Event → Stage → Prop
  | entered (config) (hc : cancel = false) : Advance cancel id (.enter config) [] (.copy config)
  | notEntered (config) : Advance cancel id (.enter config) [] (.ended .cancelled)
  | copied (i : Import) : Advance cancel id (.copy i.copy.config) [] (.beforeImport i)
  | notCopied (config) (message) : Advance cancel id (.copy config) [] (.ended (.failed message))
  | mayImport (i) (hc : cancel = false) : Advance cancel id (.beforeImport i) [] (.importing i)
  | notImporting (i) : Advance cancel id (.beforeImport i) [] (.cleaningUp .cancelled)
  | imported (i) (uuid) :
      Advance cancel id (.importing i) [.addConnection id i (some uuid)] (.beforeActivation uuid)
  | notImported (i) (uuid) (message) :
      Advance cancel id (.importing i) [.addConnection id i uuid] (.cleaningUp (.failed message))
  | mayActivate (uuid) (hc : cancel = false) :
      Advance cancel id (.beforeActivation uuid) [] (.activating uuid)
  | notActivating (uuid) : Advance cancel id (.beforeActivation uuid) [] (.cleaningUp .cancelled)
  | activated (uuid) :
      Advance cancel id (.activating uuid) [.activateConnection id uuid true] (.afterActivation uuid)
  | notActivated (uuid) (message) :
      Advance cancel id (.activating uuid) [.activateConnection id uuid false]
        (.cleaningUp (.failed message))
  | kept (uuid) (hc : cancel = false) : Advance cancel id (.afterActivation uuid) [] (.saving uuid)
  | notKept (uuid) : Advance cancel id (.afterActivation uuid) [] (.withdrawing uuid)
  | withdrawn (uuid) : Advance cancel id (.withdrawing uuid) [.disconnect id uuid] (.deleting uuid)
  | deleted (uuid) : Advance cancel id (.deleting uuid) [.deleteConnection id uuid] (.cleaningUp .cancelled)
  | saved (uuid) : Advance cancel id (.saving uuid) [] (.cleaningUp .done)
  | cleanedUp (outcome) : Advance cancel id (.cleaningUp outcome) [] (.ended outcome)
  | disconnected (events)
      (he : ∀ event ∈ events, ∃ uuid, event = .disconnect id uuid ∨ event = .deleteConnection id uuid) :
      Advance cancel id .disconnecting events (.ended .done)

def frame (b : NetworkManager) : List Job × Bool × Bool × Caller × List Idle × Nat :=
  (b.queue, b.cancel, b.suppress, b.caller, b.idle, b.nextId)

structure Moved (b c : NetworkManager) (job : Job) (stage : Stage) (events : List Event)
    (next : Stage) : Prop where
  advance : Advance b.cancel job.id stage events next
  worker : c.worker = some (.busy job next)
  trace : c.trace = events ++ b.trace
  kept : frame c = frame b

theorem config_privateCopy {config : Option (List Char)} {ca : CaSetting} {copy : PrivateCopy}
    (h : privateCopy config ca = some copy) : copy.config = config := by
  simp only [privateCopy] at h
  split at h
  · obtain rfl := Option.some.inj h
    rfl
  · cases h

section

variable {next : Stage} {events : List Event}

theorem Moved.of_toStage (ha : Advance b.cancel job.id stage [] next) (ht : c.trace = b.trace)
    (hf : frame c = frame b) :
    Moved b (toStage c job next) job stage [] next :=
  ⟨ha, rfl, ht, hf⟩

theorem Moved.of_log {event : Event} (ha : Advance b.cancel job.id stage [event] next)
    (ht : c.trace = b.trace)
    (hf : frame c = frame b) : Moved b (log (toStage c job next) event) job stage [event] next :=
  ⟨ha, rfl, congrArg (event :: ·) ht, hf⟩

end

theorem moved_unlessCancelled {go stopped : Stage}
    (hgo : b.cancel = false → Advance b.cancel job.id stage [] go)
    (hstop : Advance b.cancel job.id stage [] stopped) :
    ∃ events next, Moved b (unlessCancelled b job go stopped) job stage events next := by
  simp only [unlessCancelled]
  cases hb : b.cancel with
  | false => exact ⟨[], go, .of_toStage (hgo hb) rfl rfl⟩
  | true => exact ⟨[], stopped, .of_toStage hstop rfl rfl⟩

theorem moved_copyProfile (b : NetworkManager) (job : Job) (config : Option (List Char)) (e : Answers) :
    ∃ events next, Moved b (copyProfile b job config e) job (.copy config) events next := by
  have hfail : Advance b.cancel job.id _ _ _ := .notCopied config (e.raised.getD "")
  simp only [copyProfile]
  split
  · exact ⟨_, _, .of_toStage hfail rfl rfl⟩
  · split
    · rename_i copy hc
      split_ifs at hc
      obtain rfl := config_privateCopy hc
      exact ⟨_, _, .of_toStage (.copied { copy, username := e.username, password := password e }) rfl rfl⟩
    · split <;> exact ⟨_, _, .of_toStage hfail rfl rfl⟩

theorem moved_addConnection (b : NetworkManager) (job : Job) (i : Import) (e : Answers) :
    ∃ events next, Moved b (addConnection b job i e) job (.importing i) events next := by
  simp only [addConnection]
  split
  · exact ⟨_, _, .of_log (.notImported i none _) rfl rfl⟩
  · cases e.uuid with
    | none => exact ⟨_, _, .of_log (.notImported i none _) rfl rfl⟩
    | some uuid =>
        dsimp only
        split
        · exact ⟨_, _, .of_log (.notImported i (some uuid) _) rfl rfl⟩
        · exact ⟨_, _, .of_log (.imported i uuid) rfl rfl⟩

theorem moved_activateConnection (b : NetworkManager) (job : Job) (uuid : String) (e : Answers) :
    ∃ events next, Moved b (activateConnection b job uuid e) job (.activating uuid) events next := by
  simp only [activateConnection]
  cases e.raised with
  | some message => exact ⟨_, _, .of_log (.notActivated uuid message) rfl rfl⟩
  | none =>
      cases e.activated with
      | false => exact ⟨_, _, .of_log (.notActivated uuid _) rfl rfl⟩
      | true => exact ⟨_, _, .of_log (.activated uuid) rfl rfl⟩

theorem moved_cleanUp (b : NetworkManager) (job : Job) (outcome : Outcome) (e : Answers) :
    ∃ events next, Moved b (cleanUp b job outcome e) job (.cleaningUp outcome) events next := by
  simp only [cleanUp]
  split
  · split <;> exact ⟨_, _, .of_toStage (.cleanedUp outcome) rfl rfl⟩
  · exact ⟨_, _, .of_toStage (.cleanedUp outcome) rfl rfl⟩

theorem kept_foldl_disconnect {α : Type} {f : NetworkManager → α} (hf : ∀ b event, f (log b event) = f b)
    (id : Nat) (uuids : List String) (b : NetworkManager) :
    f (uuids.foldl (fun b uuid => log b (.disconnect id uuid)) b) = f b := by
  induction uuids generalizing b with
  | nil => rfl
  | cons uuid uuids ih => exact (ih (log b (.disconnect id uuid))).trans (hf b (.disconnect id uuid))

theorem trace_foldl_disconnect (id : Nat) (uuids : List String) (b : NetworkManager) :
    (uuids.foldl (fun b uuid => log b (.disconnect id uuid)) b).trace =
      uuids.reverse.map (.disconnect id) ++ b.trace := by
  induction uuids generalizing b with
  | nil => rfl
  | cons uuid uuids ih =>
      rw [List.foldl_cons, ih]
      simp only [log, List.reverse_cons, List.map_append, List.map_cons, List.map_nil, List.append_assoc,
        List.cons_append, List.nil_append]

theorem moved_disconnectBlocking (b : NetworkManager) (job : Job) (e : Answers) :
    ∃ events next, Moved b (disconnectBlocking b job e) job .disconnecting events next := by
  simp only [disconnectBlocking]
  split
  · have ht := trace_foldl_disconnect job.id (e.activeUuids.take 3) b
    have hf := kept_foldl_disconnect (f := frame) (fun _ _ => rfl) job.id (e.activeUuids.take 3) b
    refine ⟨_, _, .disconnected _ fun event he => ?_, rfl, ht, hf⟩
    obtain ⟨uuid, -, rfl⟩ := List.mem_map.mp he
    exact ⟨uuid, .inl rfl⟩
  · rename_i uuid _
    split
    · refine ⟨[.deleteConnection job.id uuid, .disconnect job.id uuid], _,
        .disconnected _ fun event he => ?_, rfl, rfl, rfl⟩
      rcases List.mem_cons.mp he with rfl | he
      · exact ⟨uuid, .inr rfl⟩
      · exact ⟨uuid, .inl (List.mem_singleton.mp he)⟩
    · exact ⟨_, _, .of_toStage (.disconnected [] fun event he => absurd he List.not_mem_nil) rfl rfl⟩

theorem moved_stepStage (b : NetworkManager) (job : Job) (e : Answers)
    (hs : ∀ outcome, stage ≠ .ended outcome) :
    ∃ events next, Moved b (stepStage b job e stage) job stage events next := by
  cases stage with
  | enter config => exact moved_unlessCancelled (fun hc => .entered config hc) (.notEntered config)
  | copy config => exact moved_copyProfile b job config e
  | beforeImport i => exact moved_unlessCancelled (fun hc => .mayImport i hc) (.notImporting i)
  | importing i => exact moved_addConnection b job i e
  | beforeActivation uuid =>
      exact moved_unlessCancelled (fun hc => .mayActivate uuid hc) (.notActivating uuid)
  | activating uuid => exact moved_activateConnection b job uuid e
  | afterActivation uuid => exact moved_unlessCancelled (fun hc => .kept uuid hc) (.notKept uuid)
  | withdrawing uuid => exact ⟨_, _, .of_log (.withdrawn uuid) rfl rfl⟩
  | deleting uuid => exact ⟨_, _, .of_log (.deleted uuid) rfl rfl⟩
  | saving uuid => exact ⟨_, _, .of_toStage (.saved uuid) rfl rfl⟩
  | cleaningUp outcome => exact moved_cleanUp b job outcome e
  | disconnecting => exact moved_disconnectBlocking b job e
  | ended outcome => exact absurd rfl (hs outcome)

theorem stage_cases (b : NetworkManager) (job : Job) (e : Answers) (stage : Stage) :
    (∃ outcome, stage = .ended outcome) ∨
      ∃ events next, Moved b (stepStage b job e stage) job stage events next := by
  by_cases hs : ∃ outcome, stage = .ended outcome
  · exact .inl hs
  · exact .inr (moved_stepStage b job e fun outcome ho => hs ⟨outcome, ho⟩)

/-- Every step of the backend, with what it requires. -/
inductive Stepped (b : NetworkManager) : Action → NetworkManager → Prop
  | refused (config) (hi : b.caller = .idle) (hs : auditOvpnContent config ≠ []) :
      Stepped b (.connect config)
        { b with idle := b.idle ++ [.guarded (.bool false) (some (refusal (auditOvpnContent config)))] }
  | connecting (config) (hi : b.caller = .idle) (hs : auditOvpnContent config = []) :
      Stepped b (.connect config) (dispatchOffUiThread b (.connect config))
  | disconnecting (hi : b.caller = .idle) : Stepped b .disconnect (dispatchOffUiThread b .disconnect)
  | flagged (hi : b.caller = .idle) :
      Stepped b .cancelFlag (log { b with caller := .flagged, cancel := true } .cancelCalled)
  | suppressed (hf : b.caller = .flagged) :
      Stepped b .cancelSuppress { b with caller := .suppressed, suppress := true }
  | cleared (hs : b.caller = .suppressed) : Stepped b .cancelClear { b with caller := .idle, queue := [] }
  | watching (hi : b.caller = .idle) : Stepped b .startWatch (startWatch b)
  | unwatching (hi : b.caller = .idle) : Stepped b .stopWatch { b with watch := b.watch && !b.dbus }
  | heard (result error) (hi : b.caller = .idle) (hw : b.watch = true) (hs : b.suppress = false) :
      Stepped b (.signal result error) (log b (.callback result error))
  | unheard (result error) (hi : b.caller = .idle) (hw : b.watch = true) (hs : b.suppress = true) :
      Stepped b (.signal result error) b
  | answered (result error rest) (hi : b.caller = .idle) (hidle : b.idle = .guarded result error :: rest)
      (hs : b.suppress = false) :
      Stepped b .idleCallback (log { b with idle := rest } (.callback result error))
  | unanswered (result error rest) (hi : b.caller = .idle) (hidle : b.idle = .guarded result error :: rest)
      (hs : b.suppress = true) : Stepped b .idleCallback { b with idle := rest }
  | notified (runner rest) (hi : b.caller = .idle) (hidle : b.idle = .failure runner :: rest) :
      Stepped b .idleCallback (log { b with idle := rest }
        (.callback (.bool false) (some (messageOf b.messages runner))))
  | retired (e : Answers) (hw : b.worker = some .looping) (hq : b.queue = []) :
      Stepped b (.worker e) { b with worker := none }
  | taken (e : Answers) (job : Job) (rest : List Job) (hw : b.worker = some .looping)
      (hq : b.queue = job :: rest) :
      Stepped b (.worker e)
        (log (toStage { b with queue := rest, cancel := false, suppress := false } job (firstStage job.op))
          (.started job.id))
  | worked (e : Answers) (job : Job) (stage : Stage) (hw : b.worker = some (.busy job stage)) :
      Stepped b (.worker e) (stepStage b job e stage)

theorem guardedCallback_cases (b : NetworkManager) (result : Result) (error : Option String) :
    b.suppress = true ∧ guardedCallback b result error = b ∨
      b.suppress = false ∧ guardedCallback b result error = log b (.callback result error) := by
  cases hs : b.suppress with
  | true => exact .inl ⟨rfl, if_pos hs⟩
  | false => exact .inr ⟨rfl, if_neg (Bool.eq_false_iff.mp hs)⟩

theorem stopWatch_eq (b : NetworkManager) : stopWatch b = { b with watch := b.watch && !b.dbus } := by
  obtain ⟨dbus, -, -, -, -, -, -, -, -, -, -, watch, -, -, -, -⟩ := b
  cases dbus <;> cases watch <;> rfl

theorem step_cases {a : Action} (hc : step b a = some c) : Stepped b a c := by
  cases a with
  | connect config =>
      simp only [step, connect] at hc
      split_ifs at hc with hi hs <;> obtain rfl := Option.some.inj hc
      · exact .refused config hi hs
      · exact .connecting config hi (not_not.mp hs)
  | disconnect =>
      simp only [step] at hc
      split_ifs at hc with hi
      obtain rfl := Option.some.inj hc
      exact .disconnecting hi
  | cancelFlag =>
      simp only [step] at hc
      split_ifs at hc with hi
      obtain rfl := Option.some.inj hc
      exact .flagged hi
  | cancelSuppress =>
      simp only [step] at hc
      split_ifs at hc with hf
      obtain rfl := Option.some.inj hc
      exact .suppressed hf
  | cancelClear =>
      simp only [step] at hc
      split_ifs at hc with hs
      obtain rfl := Option.some.inj hc
      exact .cleared hs
  | startWatch =>
      simp only [step] at hc
      split_ifs at hc with hi
      obtain rfl := Option.some.inj hc
      exact .watching hi
  | stopWatch =>
      simp only [step, stopWatch_eq] at hc
      split_ifs at hc with hi
      obtain rfl := Option.some.inj hc
      exact .unwatching hi
  | signal result error =>
      simp only [step] at hc
      split_ifs at hc with hw
      obtain rfl := Option.some.inj hc
      rcases guardedCallback_cases b result error with ⟨hs, h⟩ | ⟨hs, h⟩ <;> rw [h]
      · exact .unheard result error hw.1 hw.2 hs
      · exact .heard result error hw.1 hw.2 hs
  | idleCallback =>
      simp only [step] at hc
      split_ifs at hc with hi
      split at hc
      · cases hc
      · rename_i result error rest hidle
        obtain rfl := Option.some.inj hc
        rcases guardedCallback_cases { b with idle := rest } result error with ⟨hs, h⟩ | ⟨hs, h⟩ <;> rw [h]
        · exact .unanswered result error rest hi hidle hs
        · exact .answered result error rest hi hidle hs
      · rename_i runner rest hidle
        obtain rfl := Option.some.inj hc
        exact .notified runner rest hi hidle
  | worker e =>
      simp only [step] at hc
      split at hc
      · cases hc
      · rename_i hw
        obtain rfl := Option.some.inj hc
        simp only [takeOperation]
        split
        · rename_i hq
          exact .retired e hw hq
        · rename_i job rest hq
          exact .taken e job rest hw hq
      · rename_i job stage hw
        obtain rfl := Option.some.inj hc
        exact .worked e job stage hw

def machine (b : NetworkManager) : List Job × Option Worker × Bool × Caller × Nat :=
  (b.queue, b.worker, b.cancel, b.caller, b.nextId)

/-- Every way in which an action changes the queue and its runner. -/
inductive Change (b : NetworkManager) : Action → NetworkManager → Prop
  | quiet {a : Action} {c : NetworkManager} (hm : machine c = machine b)
      (ht : c.trace = b.trace ∨ ∃ result error, c.trace = .callback result error :: b.trace) : Change b a c
  | dispatched {a : Action} (op : Op) (hi : b.caller = .idle)
      (hp : ∀ config, op = .connect config → auditOvpnContent config = []) :
      Change b a (dispatchOffUiThread b op)
  | flagged (hi : b.caller = .idle) :
      Change b .cancelFlag (log { b with caller := .flagged, cancel := true } .cancelCalled)
  | suppressed (hf : b.caller = .flagged) :
      Change b .cancelSuppress { b with caller := .suppressed, suppress := true }
  | cleared (hs : b.caller = .suppressed) : Change b .cancelClear { b with caller := .idle, queue := [] }
  | retired (e : Answers) (hw : b.worker = some .looping) (hq : b.queue = []) :
      Change b (.worker e) { b with worker := none }
  | taken (e : Answers) (job : Job) (rest : List Job) (hw : b.worker = some .looping)
      (hq : b.queue = job :: rest) :
      Change b (.worker e)
        (log (toStage { b with queue := rest, cancel := false, suppress := false } job (firstStage job.op))
          (.started job.id))
  | moved (e : Answers) {c : NetworkManager} (job : Job) (stage : Stage) (events : List Event) (next : Stage)
      (hw : b.worker = some (.busy job stage)) (hm : Moved b c job stage events next) :
        Change b (.worker e) c
  | finished (e : Answers) (job : Job) (outcome : Outcome)
      (hw : b.worker = some (.busy job (.ended outcome))) :
      Change b (.worker e) (finish b job outcome)

theorem change_of_step {a : Action} (hc : step b a = some c) : Change b a c := by
  cases step_cases hc with
  | refused | watching | unwatching | unheard | unanswered => exact .quiet rfl (.inl rfl)
  | heard | answered | notified => exact .quiet rfl (.inr ⟨_, _, rfl⟩)
  | connecting config hi hs =>
      refine .dispatched (.connect config) hi fun config' hop => ?_
      obtain rfl := Op.connect.inj hop
      exact hs
  | disconnecting hi => exact .dispatched .disconnect hi fun config hop => by cases hop
  | flagged hi => exact .flagged hi
  | suppressed hf => exact .suppressed hf
  | cleared hs => exact .cleared hs
  | retired e hw hq => exact .retired e hw hq
  | taken e job rest hw hq => exact .taken e job rest hw hq
  | worked e job stage hw =>
      rcases stage_cases b job e stage with ⟨outcome, rfl⟩ | ⟨events, next, hm⟩
      · exact .finished e job outcome hw
      · exact .moved e job stage events next hw hm

def operation : Event → Option Nat
  | .started id | .addConnection id _ _ | .activateConnection id _ _ | .disconnect id _
  | .deleteConnection id _ | .ended id _ => some id
  | .dispatched _ | .cancelCalled | .callback _ _ => none

/-- Operations are worked on in the order of their dispatch. -/
structure Ordered (b : NetworkManager) : Prop where
  queued : ∀ job ∈ b.queue, job.id < b.nextId ∧ Event.dispatched job.id ∈ b.trace
  sorted : b.queue.Pairwise (·.id < ·.id)
  running : ∀ job stage, b.worker = some (.busy job stage) →
    job.id < b.nextId ∧ ∀ j ∈ b.queue, job.id < j.id
  past : ∀ event ∈ b.trace, ∀ id, operation event = some id → id < b.nextId ∧ ∀ j ∈ b.queue, id < j.id
  known : ∀ id, Event.dispatched id ∈ b.trace → id < b.nextId

theorem forall_advance {P : Event → Prop} {cancel : Bool} {id : Nat} {next : Stage} {events : List Event}
    (h : Advance cancel id stage events next) (himport : ∀ i uuid, P (.addConnection id i uuid))
    (hactivate : ∀ uuid activated, P (.activateConnection id uuid activated))
    (hdisconnect : ∀ uuid, P (.disconnect id uuid)) (hdelete : ∀ uuid, P (.deleteConnection id uuid)) :
    ∀ event ∈ events, P event := by
  cases h with
  | imported i uuid => exact List.forall_mem_singleton.mpr (himport i uuid)
  | notImported i uuid message => exact List.forall_mem_singleton.mpr (himport i uuid)
  | activated uuid => exact List.forall_mem_singleton.mpr (hactivate uuid true)
  | notActivated uuid message => exact List.forall_mem_singleton.mpr (hactivate uuid false)
  | withdrawn uuid => exact List.forall_mem_singleton.mpr (hdisconnect uuid)
  | deleted uuid => exact List.forall_mem_singleton.mpr (hdelete uuid)
  | disconnected events he =>
      intro event hm
      obtain ⟨uuid, rfl | rfl⟩ := he event hm
      · exact hdisconnect uuid
      · exact hdelete uuid
  | entered | notEntered | copied | notCopied | mayImport | notImporting | mayActivate
  | notActivating | kept | notKept | saved | cleanedUp => exact fun event he => absurd he List.not_mem_nil

theorem operation_advance {cancel : Bool} {id : Nat} {next : Stage} {events : List Event}
    (h : Advance cancel id stage events next) : ∀ event ∈ events, operation event = some id :=
  forall_advance h (fun _ _ => rfl) (fun _ _ => rfl) (fun _ => rfl) fun _ => rfl

theorem Ordered.of_events (h : Ordered b) (events : List Event) (ht : c.trace = events ++ b.trace)
    (hq : c.queue.Sublist b.queue) (hn : c.nextId = b.nextId)
    (hw : ∀ job stage, c.worker = some (.busy job stage) → job.id < b.nextId ∧ ∀ j ∈ c.queue, job.id < j.id)
    (he : ∀ event ∈ events, ∀ id, operation event = some id → id < b.nextId ∧ ∀ j ∈ c.queue, id < j.id)
    (hd : ∀ id, Event.dispatched id ∉ events) : Ordered c where
  queued job hj := by
    obtain ⟨hlt, hm⟩ := h.queued job (hq.subset hj)
    exact ⟨hn ▸ hlt, ht ▸ List.mem_append_right events hm⟩
  sorted := h.sorted.sublist hq
  running job stage hb := hn ▸ hw job stage hb
  past event hm id ho := by
    rw [hn]
    rcases List.mem_append.mp (ht ▸ hm) with hm | hm
    · exact he event hm id ho
    · obtain ⟨hlt, hj⟩ := h.past event hm id ho
      exact ⟨hlt, fun j hm => hj j (hq.subset hm)⟩
  known id hm := by
    rw [hn]
    rcases List.mem_append.mp (ht ▸ hm) with hm | hm
    · exact absurd hm (hd id)
    · exact h.known id hm

theorem Ordered.dispatched (h : Ordered b) (op : Op) : Ordered (dispatchOffUiThread b op) := by
  have hnext : ∀ {id : Nat}, (id < b.nextId ∧ ∀ j ∈ b.queue, id < j.id) →
      id < b.nextId + 1 ∧ ∀ j ∈ b.queue ++ [⟨b.nextId, op⟩], id < j.id := by
    intro id ⟨hlt, hj⟩
    refine ⟨Nat.lt_succ_of_lt hlt, fun j hm => ?_⟩
    rcases List.mem_append.mp hm with hm | hm
    · exact hj j hm
    · obtain rfl := List.mem_singleton.mp hm
      exact hlt
  constructor
  · intro job hj
    rcases List.mem_append.mp hj with hj | hj
    · obtain ⟨hlt, hm⟩ := h.queued job hj
      exact ⟨Nat.lt_succ_of_lt hlt, List.mem_cons_of_mem _ hm⟩
    · obtain rfl := List.mem_singleton.mp hj
      exact ⟨Nat.lt_succ_self _, List.mem_cons_self⟩
  · refine List.pairwise_append.mpr ⟨h.sorted, List.pairwise_singleton _ _, fun i hi j hj => ?_⟩
    obtain rfl := List.mem_singleton.mp hj
    exact (h.queued i hi).1
  · intro job stage hw
    cases hb : b.worker with
    | none => simp [dispatchOffUiThread, log, hb] at hw
    | some worker =>
        simp only [dispatchOffUiThread, log, hb, Option.getD_some] at hw
        exact hnext (h.running job stage (hb.trans hw))
  · intro event hm id ho
    rcases List.mem_cons.mp hm with rfl | hm
    · cases ho
    · exact hnext (h.past event hm id ho)
  · intro id hm
    rcases List.mem_cons.mp hm with hm | hm
    · obtain rfl := Event.dispatched.inj hm
      exact Nat.lt_succ_self _
    · exact Nat.lt_succ_of_lt (h.known id hm)

theorem finish_kept (b : NetworkManager) (job : Job) (outcome : Outcome) :
    (finish b job outcome).suppress = b.suppress ∧ (finish b job outcome).caller = b.caller ∧
      (finish b job outcome).nmActiveUuid = b.nmActiveUuid := by
  simp only [finish]
  split
  · split <;> exact ⟨rfl, rfl, rfl⟩
  · exact ⟨rfl, rfl, rfl⟩

theorem trace_finish (b : NetworkManager) (job : Job) (outcome : Outcome) :
    (finish b job outcome).trace = .ended job.id outcome :: b.trace ∧
      machine (finish b job outcome) = machine { b with worker := some .looping } := by
  simp only [finish]
  split
  · split <;> exact ⟨rfl, rfl⟩
  · exact ⟨rfl, rfl⟩

theorem Ordered.step {a : Action} (h : Ordered b) (hc : step b a = some c) : Ordered c := by
  cases change_of_step hc with
  | quiet hm ht =>
      simp only [machine, Prod.mk.injEq] at hm
      obtain ⟨hq, hw, -, -, hn⟩ := hm
      have hrun := fun job stage hb => hq ▸ h.running job stage (hw ▸ hb)
      rcases ht with ht | ⟨result, error, ht⟩
      · exact h.of_events [] ht (hq ▸ .refl _) hn hrun (fun _ hm => absurd hm List.not_mem_nil)
          fun _ => List.not_mem_nil
      · refine h.of_events [_] ht (hq ▸ .refl _) hn hrun (fun event hm id ho => ?_) (by simp)
        obtain rfl := List.mem_singleton.mp hm
        cases ho
  | dispatched op => exact h.dispatched op
  | flagged =>
      refine h.of_events [_] rfl (.refl _) rfl h.running (fun event hm id ho => ?_) (by simp)
      obtain rfl := List.mem_singleton.mp hm
      cases ho
  | suppressed =>
      exact h.of_events [] rfl (.refl _) rfl h.running (fun _ hm => absurd hm List.not_mem_nil)
        fun _ => List.not_mem_nil
  | cleared =>
      exact h.of_events [] rfl (List.nil_sublist _) rfl
        (fun job stage hb => ⟨(h.running job stage hb).1, fun _ hm => absurd hm List.not_mem_nil⟩)
        (fun _ hm => absurd hm List.not_mem_nil) fun _ => List.not_mem_nil
  | retired e hw hq =>
      exact h.of_events [] rfl (.refl _) rfl (fun job stage hb => by cases hb)
        (fun _ hm => absurd hm List.not_mem_nil) fun _ => List.not_mem_nil
  | taken e job rest hw hq =>
      have hjob : job.id < b.nextId ∧ ∀ j ∈ rest, job.id < j.id :=
        ⟨(h.queued job (hq ▸ List.mem_cons_self)).1, (List.pairwise_cons.mp (hq ▸ h.sorted)).1⟩
      refine h.of_events [_] rfl (hq ▸ List.sublist_cons_self job rest) rfl (fun j stage hb => ?_)
        (fun event hm id ho => ?_) (by simp)
      · obtain ⟨rfl, -⟩ := Worker.busy.inj (Option.some.inj hb)
        exact hjob
      · obtain rfl := List.mem_singleton.mp hm
        obtain rfl := Option.some.inj ho
        exact hjob
  | moved e job stage events next hw hm =>
      obtain ⟨ha, hw', ht, hf⟩ := hm
      simp only [frame, Prod.mk.injEq] at hf
      obtain ⟨hq, -, -, -, -, hn⟩ := hf
      have hrun := h.running job stage hw
      refine h.of_events events ht (hq ▸ .refl _) hn (fun j stage' hb => ?_)
        (fun event hm id ho => ?_) fun id hm => ?_
      · rw [hw'] at hb
        obtain ⟨rfl, -⟩ := Worker.busy.inj (Option.some.inj hb)
        exact hq ▸ hrun
      · obtain rfl := Option.some.inj ((operation_advance ha event hm).symm.trans ho)
        exact hq ▸ hrun
      · cases operation_advance ha _ hm
  | finished e job outcome hw =>
      obtain ⟨ht, hm⟩ := trace_finish b job outcome
      simp only [machine, Prod.mk.injEq] at hm
      obtain ⟨hq, hw', -, -, hn⟩ := hm
      refine h.of_events [_] ht (hq ▸ .refl _) hn (fun j stage hb => ?_) (fun event hm id ho => ?_)
        (by simp)
      · rw [hw'] at hb
        cases hb
      · obtain rfl := List.mem_singleton.mp hm
        obtain rfl := Option.some.inj ho
        exact hq ▸ h.running job _ hw

theorem ordered_init : Ordered {} where
  queued _ hj := absurd hj List.not_mem_nil
  sorted := .nil
  running _ _ hw := by cases hw
  past _ hm := absurd hm List.not_mem_nil
  known _ hm := absurd hm List.not_mem_nil

end EovpnPro.NmOperations
