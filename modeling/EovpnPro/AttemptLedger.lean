import EovpnPro.MainWindow

namespace EovpnPro.AttemptLedger

open AutoConnect AppState

inductive Milestone
  | begin
  | attempt (position : Nat)
  | advance (position : Nat)
  | ended
  deriving DecidableEq, Repr

/-- The position being attempted: the latest one since the last milestone that
ends an attempt, newest milestone first. -/
def openPosition : List Milestone → Option Nat
  | .attempt k :: _ => some k
  | _ => none

/-- Every advance leaves a position that was being attempted. -/
def Attempted : List Milestone → Prop
  | [] => True
  | .advance k :: older => openPosition older = some k ∧ Attempted older
  | _ :: older => Attempted older

def positions : List Milestone → List Nat
  | [] => []
  | .begin :: _ => []
  | .attempt k :: older => positions older ++ [k]
  | _ :: older => positions older

/-- What a cascade run is about: which candidate is being tried, which ones were
given up, in which order that happened, and what the next attempt depends on. -/
structure Ledger where
  manager : Option Backend := none
  latencies : Latencies := []
  disconnectRetries : Nat := 0
  active : Bool := false
  phase : CascadePhase := .idle
  queue : List String := []
  index : Nat := 0
  current : Option String := none
  failed : List String := []
  recorded : List String := []
  attempting : Bool := false
  history : List Milestone := []

variable {l : Ledger}

def Ledger.close (l : Ledger) : Ledger := { l with attempting := false }

def Ledger.settle (l : Ledger) : Ledger := { l with phase := .settling }

def Ledger.setRetries (l : Ledger) (retries : Nat) : Ledger := { l with disconnectRetries := retries }

def Ledger.attempt (l : Ledger) (name : String) : Ledger :=
  { l with
    phase := .connecting
    current := some name
    recorded := l.recorded ++ [name]
    attempting := true
    history := .attempt l.index :: l.history }

def Ledger.giveUp (l : Ledger) : Ledger :=
  { l with
    phase := .settling
    index := l.index + 1
    failed := l.failed ++ l.current.toList.filter (fun name => name ≠ "")
    attempting := if l.current.any (fun name => name ≠ "") then false else l.attempting
    history := .advance l.index :: l.history }

def Ledger.finish (l : Ledger) (phase : CascadePhase) : Ledger :=
  { l with active := false, phase, attempting := false, history := .ended :: l.history }

def Ledger.prepare (l : Ledger) : Ledger :=
  { l with active := true, phase := .preparing, queue := [], index := 0, current := none }

def Ledger.load (l : Ledger) (queue : List String) : Ledger :=
  { l with
    active := true
    phase := .connecting
    queue
    index := 0
    current := none
    failed := []
    recorded := []
    attempting := false
    disconnectRetries := 0
    history := .begin :: l.history }

/-- A run that leaves its candidates one at a time: the failures are the queue
up to the index, and each of them had an attempt of its own. -/
structure AdvancesOnce (l : Ledger) : Prop where
  failed : l.queue ≠ [] → l.failed = l.queue.take l.index
  counted : l.queue ≠ [] → l.failed.length = l.index
  recorded : l.queue ≠ [] → l.recorded.map some = (positions l.history).map (fun k => l.queue[k]?)
  attempted : Attempted l.history

structure Sound (l : Ledger) : Prop extends AdvancesOnce l where
  opened : openPosition l.history = if l.attempting then some l.index else none
  running : l.attempting = true → l.active = true
  named : "" ∉ l.queue
  at_index : l.attempting = true → ∃ name, l.queue[l.index]? = some name ∧ l.current = some name

theorem Sound.open_some (h : Sound l) (ha : l.attempting = true) : openPosition l.history = some l.index := by
  rw [h.opened, ha, if_pos rfl]

theorem Sound.open_none (h : Sound l) (ha : l.attempting = false) : openPosition l.history = none := by
  rw [h.opened, ha]; rfl

theorem Sound.settle (h : Sound l) : Sound l.settle :=
  ⟨⟨h.failed, h.counted, h.recorded, h.attempted⟩, h.opened, h.running, h.named, h.at_index⟩

theorem Sound.setRetries (h : Sound l) (retries : Nat) : Sound (l.setRetries retries) :=
  ⟨⟨h.failed, h.counted, h.recorded, h.attempted⟩, h.opened, h.running, h.named, h.at_index⟩

theorem Sound.finish_as (h : Sound l) (current : Option String) (phase : CascadePhase) :
    Sound ({ l with current }.finish phase) :=
  ⟨⟨h.failed, h.counted, h.recorded, h.attempted⟩, rfl, fun ha => Bool.noConfusion ha, h.named,
    fun ha => Bool.noConfusion ha⟩

theorem Sound.finish (h : Sound l) (phase : CascadePhase) : Sound (l.finish phase) :=
  h.finish_as l.current phase

theorem Sound.prepare (h : Sound l) (ha : l.attempting = false) : Sound l.prepare where
  failed hq := absurd rfl hq
  counted hq := absurd rfl hq
  recorded hq := absurd rfl hq
  attempted := h.attempted
  opened := by simpa [Ledger.prepare, ha] using h.open_none ha
  running _ := rfl
  named := List.not_mem_nil
  at_index ht := absurd (ha.symm.trans ht) Bool.false_ne_true

theorem Sound.load (h : Sound l) {queue : List String} (hq : "" ∉ queue) : Sound (l.load queue) where
  failed _ := rfl
  counted _ := rfl
  recorded _ := rfl
  attempted := h.attempted
  opened := rfl
  running ha := Bool.noConfusion ha
  named := hq
  at_index ha := Bool.noConfusion ha

theorem Sound.attempt (h : Sound l) (ha : l.active = true) {name : String}
    (hn : l.queue[l.index]? = some name) : Sound (l.attempt name) where
  failed := h.failed
  counted := h.counted
  recorded hq := by
    have hr := h.recorded hq
    simp only [Ledger.attempt, positions, List.map_append, List.map_cons, List.map_nil, hr, hn]
  attempted := h.attempted
  opened := rfl
  running _ := ha
  named := h.named
  at_index _ := ⟨name, hn, rfl⟩

theorem Sound.giveUp (h : Sound l) (ha : l.attempting = true) : Sound l.giveUp := by
  obtain ⟨name, hn, hc⟩ := h.at_index ha
  have hne : name ≠ "" := fun he => h.named (he ▸ List.mem_of_getElem? hn)
  refine ⟨⟨fun hq => ?_, fun hq => ?_, h.recorded, h.open_some ha, h.attempted⟩, ?_, fun _ => h.running ha,
    h.named, fun ht => ?_⟩
  · simp [Ledger.giveUp, hc, hne, h.failed hq, List.take_add_one, hn]
  · simp [Ledger.giveUp, hc, hne, h.counted hq]
  · simp [Ledger.giveUp, hc, hne, openPosition]
  · simp [Ledger.giveUp, hc, hne] at ht

theorem Sound.not_attempted_giveUp (h : Sound l) (ha : l.attempting = false) :
    ¬ Attempted l.giveUp.history := by
  intro hg
  have hs := hg.1
  rw [h.open_none ha] at hs
  cases hs

end EovpnPro.AttemptLedger
