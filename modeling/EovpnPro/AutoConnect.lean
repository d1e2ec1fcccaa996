import Mathlib.Data.List.Sort
import Mathlib.Order.Lattice

namespace EovpnPro.AutoConnect

abbrev Time := Nat

def millisecond : Time := 1000000

def second : Time := 1000 * millisecond

def disconnectSettleMs : Nat := 550

def progressTickMs : Nat := 100

def maxCascadeCandidates : Nat := 50

inductive CascadePhase
  | idle
  | preparing
  | connecting
  | settling
  | succeeded
  | exhausted
  | cancelled
  deriving DecidableEq, Repr

/-- Filename to round-trip time; `none` is a server that did not answer. -/
abbrev LatencyMap (R : Type) := List (String × Option R)

/-- Times in tenths of a millisecond, the resolution that `ping_host` rounds to. -/
abbrev Latencies := LatencyMap Int

def clampBudget (tenthsOfMs : Int) : Nat :=
  (min 450000 (max 300000 (300000 + 8 * tenthsOfMs))).toNat

/-- `compute_attempt_timeout`. The budget is kept in units of 100 microseconds
and rounded to hundredths of a second. -/
def computeAttemptTimeout (rtt : Option Int) : Time :=
  match rtt with
  | none => 30 * second
  | some t => if t < 0 then 30 * second else (clampBudget t + 50) / 100 * (10 * millisecond)

variable {R : Type} [LinearOrder R]

/-- The sort key of `build_cascade_queue`: measured before unmeasured, then by
latency, then by position in the visible list. -/
def latencyLe (latencies : LatencyMap R) (p q : String × Nat) : Bool :=
  match (latencies.lookup p.1).join, (latencies.lookup q.1).join with
  | some a, some b => decide (a < b ∨ (a = b ∧ p.2 ≤ q.2))
  | some _, none => true
  | none, some _ => false
  | none, none => decide (p.2 ≤ q.2)

def eligibleFiles (files : List String) (latencies : LatencyMap R) (skip : Bool) : List (String × Nat) :=
  files.zipIdx.filter (fun entry => !(skip && latencies.lookup entry.1 == some none))

def orderByLatency (latencies : LatencyMap R) (hasAnyRtt : Bool) (eligible : List (String × Nat)) :
    List (String × Nat) :=
  if hasAnyRtt then eligible.insertionSort (fun p q => latencyLe latencies p q) else eligible

def buildCascadeQueue (visible : List String) (latencies : LatencyMap R)
    (skipUnreachable : Bool) (maxCandidates : Int) : List String :=
  let files := visible.filter (fun name => name ≠ "")
  if files = [] then [] else
    let limit := max 1 maxCandidates.toNat
    let hasAnyRtt := latencies.any (fun entry => entry.2.isSome)
    let eligible := eligibleFiles files latencies (skipUnreachable && hasAnyRtt)
    let queue := ((orderByLatency latencies hasAnyRtt eligible).take limit).map Prod.fst
    if queue = [] then files.take limit else queue

theorem mem_eligibleFiles {files : List String} {latencies : LatencyMap R} {skip : Bool}
    {entry : String × Nat} (h : entry ∈ eligibleFiles files latencies skip) : entry.1 ∈ files := by
  obtain ⟨name, position⟩ := entry
  exact List.fst_mem_of_mem_zipIdx (List.mem_filter.mp h).1

theorem mem_orderByLatency {latencies : LatencyMap R} {hasAnyRtt : Bool}
    {eligible : List (String × Nat)} {entry : String × Nat} :
    entry ∈ orderByLatency latencies hasAnyRtt eligible ↔ entry ∈ eligible := by
  cases hasAnyRtt with
  | false => rfl
  | true => exact (List.perm_insertionSort _ _).mem_iff

theorem mem_buildCascadeQueue {visible : List String} {latencies : LatencyMap R}
    {skipUnreachable : Bool} {maxCandidates : Int} {name : String}
    (h : name ∈ buildCascadeQueue visible latencies skipUnreachable maxCandidates) :
    name ∈ visible ∧ name ≠ "" := by
  suffices hf : name ∈ visible.filter (fun name => name ≠ "") by
    simpa using List.mem_filter.mp hf
  simp only [buildCascadeQueue] at h
  split_ifs at h with hfiles hqueue
  · simp at h
  · exact List.mem_of_mem_take h
  · obtain ⟨entry, he, rfl⟩ := List.mem_map.mp h
    exact mem_eligibleFiles (mem_orderByLatency.mp (List.mem_of_mem_take he))

end EovpnPro.AutoConnect
