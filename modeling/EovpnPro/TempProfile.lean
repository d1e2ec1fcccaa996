import EovpnPro.NmWorker
import EovpnPro.Raising
import Mathlib.Logic.Function.Basic

namespace EovpnPro.TempProfile

open ProfileAudit PyText Raising Runs

abbrev Text := List Char

inductive Failure
  | cancelled
  | error (message : String)
  deriving DecidableEq, Repr

abbrev Path := { name : String // name ≠ "" }

/-- What the backend has of its own, and the file system. `idle` has the error messages that
wait for the main loop. -/
structure NetworkManager where
  files : Path → Option Text
  tempConfigPath : Option Path := none
  uuid : Option String := none
  nmActiveUuid : Option String := none
  callback : Bool := true
  idle : List String := []

abbrev Operation (α : Type) := Program Failure NetworkManager α

/-- What the calls of one `_connect_blocking` come to, in their order. The flags are what
the cancel event says at each look at it. -/
structure ConnectReplies where
  cancelledFirst : Bool := false
  username : Except Failure (Option String) := .ok none
  ca : Except Failure (Option String) := .ok none
  secret : Except Failure (Option String) := .ok none
  sessionPassword : Except Failure (Option String) := .ok none
  made : Except Failure Path
  chmod : Except Failure Unit := .ok ()
  fdopen : Except Failure Unit := .ok ()
  config : Except Failure Text := .ok []
  configWritten : Except Failure Unit := .ok ()
  caExists : Bool := true
  caText : Except Failure Text := .ok []
  caWritten : Except Failure Unit := .ok ()
  closed : Except Failure Unit := .ok ()
  removedOnFailure : Except Failure Unit := .ok ()
  cancelledBeforeImport : Bool := false
  encoded : Except Failure Unit := .ok ()
  uuid : Except Failure (Option String) := .ok none
  lastError : Option String := none
  cancelledBeforeActivation : Bool := false
  activated : Except Failure Bool := .ok true
  cancelledAfterActivation : Bool := false
  disconnected : Except Failure Unit := .ok ()
  deleted : Except Failure Unit := .ok ()
  saved : Except Failure Unit := .ok ()
  removed : Except Failure Unit := .ok ()
  cancelledAtEnd : Bool := false

/-- The same for `_disconnect_blocking`, whose loop asks for a tunnel and takes it down. -/
structure DisconnectReplies where
  tunnels : List (Except Failure (Option String) × Except Failure Unit) := []
  found : Except Failure Bool := .ok true
  disconnected : Except Failure Unit := .ok ()
  deleted : Except Failure Unit := .ok ()
  saved : Except Failure Unit := .ok ()
  cancelledAtEnd : Bool := false

def raiseIfCancelled (cancelled : Bool) : Operation Unit := if cancelled then throw .cancelled else pure ()

/-- `mkstemp` makes a file that was not there. -/
def mkstemp (made : Except Failure Path) : Operation Path := do
  let path ← ask made
  if ((← get).files path).isSome then throw (.error "File exists")
  else
    modify fun b => { b with files := Function.update b.files path (some []) }
    pure path

def write (path : Path) (text : Text) (written : Except Failure Unit) : Operation Unit := do
  ask written
  modify fun b => { b with files := Function.update b.files path ((b.files path).map (· ++ text)) }

def remove (path : Path) (removed : Except Failure Unit) : Operation Unit := do
  ask removed
  modify fun b => { b with files := Function.update b.files path none }

def setTempConfigPath (path : Option Path) : Operation Unit := modify fun b => { b with tempConfigPath := path }

def writeCopy (r : ConnectReplies) (ca : Option String) (path : Path) : Operation Unit := do
  let text ← ask r.config
  write path (universalNewlines text ++ ['\n']) r.configWritten
  if ca.isSome && r.caExists then
    let text ← ask r.caText
    write path (caBlock (universalNewlines text)) r.caWritten

/-- The private copy. Its file is closed on either way out of the `with` block. -/
def copyProfile (r : ConnectReplies) (ca : Option String) (path : Path) : Operation Unit := do
  ask r.chmod
  ask r.fdopen
  finallyDo (writeCopy r ca path) (ask r.closed)

/-- The `except` block around the copy. -/
def discardCopy (r : ConnectReplies) (path : Path) (x : Failure) : Operation Unit := do
  if ((← get).files path).isSome then remove path r.removedOnFailure
  setTempConfigPath none
  throw x

/-- The native calls. The profile is withdrawn again when the cancel comes during the
activation. -/
def importAndActivate (r : ConnectReplies) : Operation Unit := do
  raiseIfCancelled r.cancelledBeforeImport
  ask r.encoded
  let uuid ← ask r.uuid
  modify fun b => { b with uuid := uuid }
  match uuid.filter (· ≠ "") with
  | none => throw (.error (NmWorker.nativeError r.lastError "NetworkManager could not import the VPN profile."))
  | some uuid =>
      raiseIfCancelled r.cancelledBeforeActivation
      let activated ← ask r.activated
      if !activated then
        throw (.error (NmWorker.nativeError r.lastError "NetworkManager rejected activation of the VPN profile."))
      else if r.cancelledAfterActivation then
        ask r.disconnected
        ask r.deleted
        modify fun b => { b with uuid := none }
        throw .cancelled
      else
        ask r.saved
        modify fun b => { b with nmActiveUuid := some uuid }

/-- The `finally` block around the native calls. Its own exception is logged only. -/
def cleanUp (r : ConnectReplies) : Operation Unit := do
  let b ← get
  match b.tempConfigPath with
  | none => pure ()
  | some path =>
      if (b.files path).isSome then
        tryCatch (remove path r.removed) fun _ => pure ()
        setTempConfigPath none
      else pure ()

def lookUpPassword (r : ConnectReplies) : Option String → Operation (Option String)
  | none => pure none
  | some _ => tryCatch (ask r.secret) fun _ => ask r.sessionPassword

def connectBlocking (r : ConnectReplies) : Operation Unit := do
  raiseIfCancelled r.cancelledFirst
  let username ← ask r.username
  let ca ← ask r.ca
  let _ ← lookUpPassword r username
  let path ← mkstemp r.made
  setTempConfigPath (some path)
  tryCatch (copyProfile r ca path) (discardCopy r path)
  finallyDo (importAndActivate r) (cleanUp r)

def takeDown : List (Except Failure (Option String) × Except Failure Unit) → Operation Unit
  | [] => pure ()
  | (active, disconnected) :: rest => do
      let uuid ← ask active
      match uuid.filter (· ≠ "") with
      | none => pure ()
      | some _ =>
          ask disconnected
          takeDown rest

def disconnectBlocking (r : DisconnectReplies) : Operation Unit := do
  match (← get).uuid with
  | none => takeDown (r.tunnels.take 3)
  | some _ =>
      let found ← ask r.found
      if found then
        ask r.disconnected
        ask r.deleted
        modify fun b => { b with uuid := none }
        ask r.saved
        modify fun b => { b with nmActiveUuid := none }
      else pure ()

/-- The part of `_operation_runner` around one operation. -/
def runOperation (b : NetworkManager) (operation : Operation Unit) (cancelled : Bool) : NetworkManager :=
  match operation b with
  | (.ok (), t) | (.error .cancelled, t) => t
  | (.error (.error message), t) =>
      if t.callback && !cancelled then
        { t with idle := t.idle ++ [if message = "" then "NetworkManager operation failed." else message] }
      else t

/-- The operations that the worker thread takes from the queue, one at a time. Between two of
them others do to their files what they want. -/
inductive Action
  | connect (r : ConnectReplies)
  | disconnect (r : DisconnectReplies)
  | outside (files : Path → Option Text)

def step (b : NetworkManager) : Action → NetworkManager
  | .connect r => runOperation b (connectBlocking r) r.cancelledAtEnd
  | .disconnect r => runOperation b (disconnectBlocking r) r.cancelledAtEnd
  | .outside files => { b with files := files }

def initial (files : Path → Option Text) : NetworkManager := { files }

section Operations

variable {files : Path → Option Text} {path : Path} {I : NetworkManager → Prop}

def Clean (files : Path → Option Text) (b : NetworkManager) : Prop :=
  b.tempConfigPath = none ∧ b.files = files

def Copied (files : Path → Option Text) (path : Path) (b : NetworkManager) : Prop :=
  files path = none ∧ b.tempConfigPath = some path ∧
    ∃ text, b.files = Function.update files path (some text)

theorem Copied.file (h : Copied files path b) : (b.files path).isSome = true := by
  obtain ⟨-, -, text, ht⟩ := h
  rw [ht, Function.update_self]
  rfl

def caSetting (r : ConnectReplies) : Option String → CaSetting
  | none => .unset
  | some _ => if r.caExists then .file r.caText.toOption else .missing

theorem triple_write (path : Path) (old text : Text) (written : Except Failure Unit) :
    Triple (fun b => b.files path = some old) (write path text written)
      (fun _ b => b.files path = some (old ++ text)) fun _ _ => True := by
  apply triple_ask
  · intro _ _
    apply triple_modify
    intro b hb
    change Function.update b.files path ((b.files path).map (· ++ text)) path = some (old ++ text)
    rw [Function.update_self, hb]
    rfl
  · exact fun _ _ _ _ => trivial

theorem writeCopy_document (r : ConnectReplies) (ca : Option String) (path : Path) :
    Triple (fun b => b.files path = some []) (writeCopy r ca path)
      (fun _ b => b.files path = copied r.config.toOption (caSetting r ca)) fun _ _ => True := by
  apply triple_ask
  · intro text htext
    rw [htext]
    apply (triple_write path [] (universalNewlines text ++ ['\n']) r.configWritten).bind
    intro _
    apply Triple.ite
    · intro hca
      obtain ⟨hsome, hexists⟩ := Bool.and_eq_true_iff.mp hca
      obtain ⟨name, rfl⟩ := Option.isSome_iff_exists.mp hsome
      rw [caSetting, if_pos hexists]
      apply triple_ask
      · intro caText hread
        rw [hread]
        exact triple_write path _ _ r.caWritten
      · exact fun _ _ _ _ => trivial
    · intro hca
      apply triple_pure
      intro b hb
      rw [hb]
      cases ca with
      | none => rfl
      | some name =>
          have hmissing : ¬r.caExists = true := hca
          rw [caSetting, if_neg hmissing]
          rfl
  · exact fun _ _ _ _ => trivial

theorem copyProfile_document (r : ConnectReplies) (ca : Option String) (path : Path) :
    Triple (fun b => b.files path = some []) (copyProfile r ca path)
      (fun _ b => b.files path = copied r.config.toOption (caSetting r ca)) fun _ _ => True := by
  apply triple_ask
  · intro _ _
    apply triple_ask
    · intro _ _
      apply (writeCopy_document r ca path).finallyDo
      · exact fun _ => (stays_ask r.closed).consequence (fun _ h => h) (fun _ _ h => h) fun _ _ _ => trivial
      · exact fun _ => stays_ask r.closed
    · exact fun _ _ _ _ => trivial
  · exact fun _ _ _ _ => trivial

theorem stays_raiseIfCancelled (cancelled : Bool) : Stays I (raiseIfCancelled cancelled) := by
  apply Stays.ite
  · exact stays_throw _
  · exact stays_pure _

theorem stays_lookUpPassword (r : ConnectReplies) (username : Option String) :
    Stays I (lookUpPassword r username) := by
  cases username with
  | none => exact stays_pure none
  | some _ => exact (stays_ask r.secret).tryCatch fun _ => stays_ask r.sessionPassword

theorem triple_mkstemp (made : Except Failure Path) : Triple (Clean files) (mkstemp made)
    (fun path b => files path = none ∧ b.files = Function.update files path (some [])) fun _ => Clean files := by
  apply Triple.bind (stays_ask made)
  intro path
  apply triple_get
  rintro b ⟨hpath, rfl⟩
  cases hfile : b.files path with
  | some text => exact ⟨hpath, rfl⟩
  | none => exact ⟨hfile, rfl⟩

theorem copied_write (path : Path) (text : Text) (written : Except Failure Unit) :
    Stays (Copied files path) (write path text written) := by
  apply (stays_ask written).bind
  intro _
  apply stays_modify
  rintro b ⟨hnew, hpath, old, hfiles⟩
  refine ⟨hnew, hpath, old ++ text, ?_⟩
  rw [hfiles, Function.update_self, Function.update_idem]
  rfl

theorem copied_writeCopy (r : ConnectReplies) (ca : Option String) (path : Path) :
    Stays (Copied files path) (writeCopy r ca path) := by
  apply (stays_ask r.config).bind
  intro text
  apply (copied_write path _ r.configWritten).bind
  intro _
  apply Stays.ite
  · apply (stays_ask r.caText).bind
    intro text
    exact copied_write path _ r.caWritten
  · exact stays_pure ()

theorem copied_copyProfile (r : ConnectReplies) (ca : Option String) (path : Path) :
    Stays (Copied files path) (copyProfile r ca path) := by
  apply (stays_ask r.chmod).bind
  intro _
  apply (stays_ask r.fdopen).bind
  intro _
  exact (copied_writeCopy r ca path).finallyDo (fun _ => stays_ask r.closed) fun _ => stays_ask r.closed

theorem triple_remove {E : Failure → NetworkManager → Prop} (path : Path) :
    Triple (Copied files path) (remove path (.ok ())) (fun _ b => b.files = files) E := by
  rintro b ⟨hnew, -, text, hfiles⟩
  change Function.update b.files path none = files
  rw [hfiles, Function.update_idem, ← hnew, Function.update_eq_self]

theorem triple_forget {E : Failure → NetworkManager → Prop} : Triple (fun b => b.files = files)
    (setTempConfigPath none) (fun _ => Clean files) E :=
  triple_modify fun _ hb => ⟨rfl, hb⟩

theorem triple_discardCopy {r : ConnectReplies} (hr : r.removedOnFailure = .ok ()) (path : Path) (x : Failure)
    {Q : Unit → NetworkManager → Prop} :
    Triple (Copied files path) (discardCopy r path x) Q fun _ => Clean files := by
  apply triple_get
  intro b hb
  rw [hb.file, if_pos rfl, hr]
  have hdiscard : Triple (Copied files path) (do
      remove path (.ok ())
      setTempConfigPath none
      throw x) Q fun _ => Clean files := by
    apply (triple_remove path).bind
    intro _
    apply triple_forget.bind
    intro _
    exact triple_throw fun _ h => h
  exact hdiscard b hb

theorem stays_importAndActivate (hu : ∀ b uuid, I b → I { b with uuid := uuid })
    (hn : ∀ b uuid, I b → I { b with nmActiveUuid := uuid }) (r : ConnectReplies) :
    Stays I (importAndActivate r) := by
  apply (stays_raiseIfCancelled _).bind
  intro _
  apply (stays_ask r.encoded).bind
  intro _
  apply (stays_ask r.uuid).bind
  intro uuid
  apply (stays_modify fun b => hu b uuid).bind
  intro _
  cases uuid.filter (· ≠ "") with
  | none => exact stays_throw _
  | some uuid =>
      apply (stays_raiseIfCancelled _).bind
      intro _
      apply (stays_ask r.activated).bind
      intro activated
      apply Stays.ite
      · exact stays_throw _
      · apply Stays.ite
        · apply (stays_ask r.disconnected).bind
          intro _
          apply (stays_ask r.deleted).bind
          intro _
          apply (stays_modify fun b => hu b none).bind
          intro _
          exact stays_throw _
        · apply (stays_ask r.saved).bind
          intro _
          exact stays_modify fun b => hn b (some uuid)

theorem triple_cleanUp {r : ConnectReplies} (hr : r.removed = .ok ()) (path : Path)
    {E : Failure → NetworkManager → Prop} :
    Triple (Copied files path) (cleanUp r) (fun _ => Clean files) E := by
  apply triple_get
  intro b hb
  rw [hb.2.1]
  dsimp only
  rw [hb.file, if_pos rfl, hr]
  have hremove : Triple (Copied files path) (do
      tryCatch (remove path (.ok ())) fun _ => pure ()
      setTempConfigPath none) (fun _ => Clean files) E := by
    apply Triple.bind ((triple_remove path).tryCatch (F := fun _ _ => False) fun _ => fun _ h => h.elim)
    intro _
    exact triple_forget
  exact hremove b hb

theorem clean_connectBlocking {r : ConnectReplies} (hfailure : r.removedOnFailure = .ok ())
    (hremoved : r.removed = .ok ()) : Stays (Clean files) (connectBlocking r) := by
  apply (stays_raiseIfCancelled _).bind
  intro _
  apply (stays_ask r.username).bind
  intro username
  apply (stays_ask r.ca).bind
  intro ca
  apply (stays_lookUpPassword r username).bind
  intro _
  apply (triple_mkstemp r.made).bind
  intro path
  apply Triple.bind (Q := fun _ => Copied files path)
  · apply triple_modify
    rintro b ⟨hnew, hfiles⟩
    exact ⟨hnew, rfl, [], hfiles⟩
  · intro _
    apply Triple.bind (Q := fun _ => Copied files path)
    · exact Triple.tryCatch (copied_copyProfile r ca path) fun x => triple_discardCopy hfailure path x
    · intro _
      apply Triple.finallyDo (Q := fun _ => Copied files path) (F := fun _ => Copied files path)
      · exact stays_importAndActivate (fun _ _ hb => hb) (fun _ _ hb => hb) r
      · exact fun _ => triple_cleanUp hremoved path
      · exact fun _ => triple_cleanUp hremoved path

theorem stays_takeDown (tunnels : List (Except Failure (Option String) × Except Failure Unit)) :
    Stays I (takeDown tunnels) := by
  induction tunnels with
  | nil => exact stays_pure ()
  | cons tunnel tunnels ih =>
      obtain ⟨active, disconnected⟩ := tunnel
      apply (stays_ask active).bind
      intro uuid
      cases uuid.filter (· ≠ "") with
      | none => exact stays_pure ()
      | some uuid =>
          apply (stays_ask disconnected).bind
          intro _
          exact ih

theorem stays_disconnectBlocking (hu : ∀ b uuid, I b → I { b with uuid := uuid })
    (hn : ∀ b uuid, I b → I { b with nmActiveUuid := uuid }) (r : DisconnectReplies) :
    Stays I (disconnectBlocking r) := by
  apply triple_get
  intro b hb
  cases b.uuid with
  | none => exact stays_takeDown (r.tunnels.take 3) b hb
  | some uuid =>
      have hdown : Stays I (do
          let found ← ask r.found
          if found then
            ask r.disconnected
            ask r.deleted
            modify fun b => { b with uuid := none }
            ask r.saved
            modify fun b => { b with nmActiveUuid := none }
          else pure () : Operation Unit) := by
        apply (stays_ask r.found).bind
        intro found
        apply Stays.ite
        · apply (stays_ask r.disconnected).bind
          intro _
          apply (stays_ask r.deleted).bind
          intro _
          apply (stays_modify fun b => hu b none).bind
          intro _
          apply (stays_ask r.saved).bind
          intro _
          exact stays_modify fun b => hn b none
        · exact stays_pure ()
      exact hdown b hb

end Operations

section Runner

variable {files : Path → Option Text} {b : NetworkManager}

theorem clean_runOperation {operation : Operation Unit} (h : Stays (Clean files) operation)
    (hb : Clean files b) (cancelled : Bool) : Clean files (runOperation b operation cancelled) := by
  have hends := h b hb
  rw [runOperation]
  rcases hr : operation b with ⟨result, t⟩
  rw [hr] at hends
  cases result with
  | ok => exact hends
  | error x =>
      cases x with
      | cancelled => exact hends
      | error message =>
          dsimp only
          split <;> exact hends

/-- `os.remove` succeeds in this operation. -/
def Removes : Action → Prop
  | .connect r => r.removedOnFailure = .ok () ∧ r.removed = .ok ()
  | .disconnect _ | .outside _ => True

theorem step_clean {a : Action} (ha : Removes a) (hb : b.tempConfigPath = none) :
    (step b a).tempConfigPath = none := by
  cases a with
  | connect r => exact (clean_runOperation (clean_connectBlocking ha.1 ha.2) ⟨hb, rfl⟩ r.cancelledAtEnd).1
  | disconnect r =>
      have hdown : Stays (Clean b.files) (disconnectBlocking r) :=
        stays_disconnectBlocking (fun _ _ h => h) (fun _ _ h => h) r
      exact (clean_runOperation hdown ⟨hb, rfl⟩ r.cancelledAtEnd).1
  | outside files => exact hb

theorem run_clean {actions : List Action} (ha : ∀ a ∈ actions, Removes a) (hb : b.tempConfigPath = none) :
    (actions.foldl step b).tempConfigPath = none := by
  induction actions generalizing b with
  | nil => exact hb
  | cons a actions ih =>
      obtain ⟨ha, hrest⟩ := List.forall_mem_cons.mp ha
      exact ih hrest (step_clean ha hb)

/-- Whatever was done before: when a `connect` has ended, the backend knows of no private
copy, and the files are those from before it, the copy not among them. -/
theorem temp_profile_removed (files : Path → Option Text) (before : List Action) (r : ConnectReplies)
    (h : ∀ a ∈ before ++ [.connect r], Removes a) :
    Clean (before.foldl step (initial files)).files (step (before.foldl step (initial files)) (.connect r)) := by
  have hbefore : (before.foldl step (initial files)).tempConfigPath = none :=
    run_clean (fun a ha => h a (List.mem_append_left _ ha)) rfl
  obtain ⟨hfailure, hremoved⟩ := h (.connect r) (List.mem_append_right _ List.mem_cons_self)
  exact clean_runOperation (clean_connectBlocking hfailure hremoved) ⟨hbefore, rfl⟩ r.cancelledAtEnd

def unreadableCa : ConnectReplies :=
  { made := .ok ⟨"/run/user/1000/eovpn-pro/tmp.ovpn", by decide⟩
    config := .ok "remote vpn.example".toList
    ca := .ok (some "ca.crt")
    caText := .error (.error "Permission denied") }

theorem unreadableCa_removed :
    Clean (fun _ => none) (step (initial fun _ => none) (.connect unreadableCa)) := by
  apply temp_profile_removed (fun _ => none) [] unreadableCa
  intro a ha
  obtain rfl := List.mem_singleton.mp ha
  exact ⟨rfl, rfl⟩

end Runner

end EovpnPro.TempProfile
