import EovpnPro.PyInt
import Mathlib.Algebra.BigOperators.Group.List.Basic
import Mathlib.Algebra.Order.Field.Rat

namespace EovpnPro.NetworkMonitor

open PyText

structure Interface where
  name : List Char
  rx : Int
  tx : Int
  deriving DecidableEq, Repr

def vpnIfaceMarkers : List String := ["tun", "tap", "ovpn", "ppp", "wg"]

def isVpn (name : List Char) : Bool := vpnIfaceMarkers.any fun marker => occursIn marker name

/-- A line that has no colon, too few values or no numbers is passed over. -/
def readInterface (line : List Char) : Option Interface :=
  if ':' ∈ line then
    let iface := strip (line.takeWhile (fun c => decide (c ≠ ':')))
    let values := split ((line.dropWhile (fun c => decide (c ≠ ':'))).drop 1)
    match values[0]?, values[8]? with
    | some received, some sent =>
        match PyInt.int received, PyInt.int sent with
        | some rx, some tx => some ⟨iface, rx, tx⟩
        | _, _ => none
    | _, _ => none
  else none

structure Totals where
  vpnRx : Int := 0
  vpnTx : Int := 0
  fallbackRx : Int := 0
  fallbackTx : Int := 0
  vpnFound : Bool := false
  deriving DecidableEq, Repr

def Totals.count (t : Totals) (i : Interface) : Totals :=
  if isVpn i.name then { t with vpnFound := true, vpnRx := t.vpnRx + i.rx, vpnTx := t.vpnTx + i.tx }
  else if occursIn "lo" i.name then t
  else { t with fallbackRx := t.fallbackRx + i.rx, fallbackTx := t.fallbackTx + i.tx }

def readLines (t : Totals) : List (List Char) → Totals
  | [] => t
  | line :: rest =>
      match readInterface line with
      | none => readLines t rest
      | some i => readLines (t.count i) rest

inductive ProcFile
  | missing
  | unreadable
  | content (text : List Char)

/-- `_read_counters`, `none` where it raises. -/
def readCounters : ProcFile → Option (Int × Int × Bool)
  | .missing => some (0, 0, false)
  | .unreadable => none
  | .content text =>
      let t := readLines {} (lines (universalNewlines text))
      if t.vpnFound then some (t.vpnRx, t.vpnTx, true) else some (t.fallbackRx, t.fallbackTx, false)

/-- The monitor between two ticks, with the speeds and the size that its labels show. -/
structure Monitor where
  lastRx : Int := 0
  lastTx : Int := 0
  lastTime : Option Rat := none
  download : Option Rat := none
  upload : Option Rat := none
  total : Option Int := none
  deriving DecidableEq

def start (m : Monitor) : Monitor := { m with lastRx := 0, lastTx := 0, lastTime := none }

def elapsed (dt : Rat) : Rat := if dt ≤ 0 then 1 else dt

/-- The labels of a tick that is not the first. -/
def showSpeeds (m : Monitor) (rx tx : Int) (dt : Rat) : Monitor :=
  let m :=
    if m.lastRx > 0 ∨ m.lastTx > 0 then
      { m with
        download := some (max 0 ((rx - m.lastRx : Int) / elapsed dt))
        upload := some (max 0 ((tx - m.lastTx : Int) / elapsed dt)) }
    else m
  { m with total := some (rx + tx) }

def tick (m : Monitor) (file : ProcFile) (now : Rat) : Monitor :=
  match readCounters file with
  | none => m
  | some (rx, tx, _) =>
      let m := m.lastTime.elim m fun last => showSpeeds m rx tx (now - last)
      { m with lastRx := rx, lastTx := tx, lastTime := some now }

def interfaces (text : List Char) : List Interface :=
  (lines (universalNewlines text)).filterMap readInterface

def total (counter : Interface → Int) (found : List Interface) : Int := (found.map counter).sum

/-- The interfaces to be counted: those of a VPN if there are any, and else all but the
loopback interface. -/
def relevant (found : List Interface) : List Interface :=
  if found.any fun i => isVpn i.name then found.filter fun i => isVpn i.name
  else found.filter fun i => i.name ≠ "lo".toList

/-- The counters returned are the sums over the right interfaces. -/
def Summed (text : List Char) : Prop :=
  (readCounters (.content text)).map (fun r => (r.1, r.2.1)) =
    some (total Interface.rx (relevant (interfaces text)), total Interface.tx (relevant (interfaces text)))

def mistaken (found : List Interface) : List Interface :=
  found.filter fun i => occursIn "lo" i.name && decide (i.name ≠ "lo".toList)

def counted (found : List Interface) : List Interface :=
  if found.any fun i => isVpn i.name then found.filter fun i => isVpn i.name
  else found.filter fun i => !occursIn "lo" i.name

theorem readLines_eq (t : Totals) (text : List (List Char)) :
    readLines t text = (text.filterMap readInterface).foldl Totals.count t := by
  induction text generalizing t with
  | nil => rfl
  | cons line rest ih =>
      rw [readLines, List.filterMap_cons]
      cases readInterface line with
      | none => exact ih t
      | some i => exact ih _

theorem foldl_count (t : Totals) (found : List Interface) :
    found.foldl Totals.count t =
      { vpnRx := t.vpnRx + total Interface.rx (found.filter fun i => isVpn i.name)
        vpnTx := t.vpnTx + total Interface.tx (found.filter fun i => isVpn i.name)
        fallbackRx := t.fallbackRx +
          total Interface.rx (found.filter fun i => !isVpn i.name && !occursIn "lo" i.name)
        fallbackTx := t.fallbackTx +
          total Interface.tx (found.filter fun i => !isVpn i.name && !occursIn "lo" i.name)
        vpnFound := t.vpnFound || found.any fun i => isVpn i.name } := by
  induction found generalizing t with
  | nil => simp [total]
  | cons i rest ih =>
      rw [List.foldl_cons, ih]
      cases hv : isVpn i.name with
      | true => simp [Totals.count, hv, total, add_assoc]
      | false => cases hl : occursIn "lo" i.name <;> simp [Totals.count, hv, hl, total, add_assoc]

theorem readCounters_content (text : List Char) :
    readCounters (.content text) =
      some (total Interface.rx (counted (interfaces text)), total Interface.tx (counted (interfaces text)),
        (interfaces text).any fun i => isVpn i.name) := by
  simp only [readCounters, readLines_eq, foldl_count, Bool.false_or, zero_add]
  rw [← interfaces]
  cases hv : (interfaces text).any fun i => isVpn i.name with
  | true => simp only [counted, hv, if_true]
  | false =>
      have hnone : ∀ i ∈ interfaces text, isVpn i.name = false := fun i hi => by
        simpa using List.any_eq_false.mp hv i hi
      have hsame : (interfaces text).filter (fun i => !isVpn i.name && !occursIn "lo" i.name) =
          (interfaces text).filter fun i => !occursIn "lo" i.name :=
        List.filter_congr fun i hi => by rw [hnone i hi]; rfl
      simp only [Bool.false_eq_true, if_false, counted, hv, hsame]

theorem total_split (counter : Interface → Int) {p q : Interface → Bool} (h : ∀ i, q i = true → p i = true)
    (found : List Interface) :
    total counter (found.filter p) =
      total counter (found.filter q) + total counter (found.filter fun i => !q i && p i) := by
  induction found with
  | nil => rfl
  | cons i rest ih =>
      simp only [total] at ih ⊢
      cases hq : q i with
      | true => simp only [hq, h i hq, List.filter_cons, Bool.not_true, Bool.false_and, Bool.false_eq_true,
          if_true, if_false, List.map_cons, List.sum_cons, ih, add_assoc]
      | false => cases hp : p i <;> simp [hq, hp, ih, add_left_comm]

theorem total_filter (counter : Interface → Int) (found : List Interface) :
    total counter (found.filter fun i => i.name ≠ "lo".toList) =
      total counter (found.filter fun i => !occursIn "lo" i.name) + total counter (mistaken found) := by
  rw [total_split counter (q := fun i => !occursIn "lo" i.name) ?_ found]
  · simp only [mistaken, Bool.not_not]
  · intro i hi
    rw [decide_eq_true_eq]
    intro hn
    rw [hn] at hi
    exact absurd hi (by decide)

/-- The sums are right exactly when there is a VPN interface, or the interfaces with "lo"
in their longer name have nothing to add. -/
theorem summed_iff (text : List Char) :
    Summed text ↔ (∃ i ∈ interfaces text, isVpn i.name = true) ∨
      total Interface.rx (mistaken (interfaces text)) = 0 ∧
        total Interface.tx (mistaken (interfaces text)) = 0 := by
  rw [Summed, readCounters_content, Option.map_some, Option.some.injEq, Prod.mk.injEq, counted, relevant,
    ← List.any_eq_true]
  by_cases hv : ((interfaces text).any fun i => isVpn i.name) = true
  · simp only [if_pos hv]
    exact iff_of_true ⟨trivial, trivial⟩ (.inl hv)
  · simp only [if_neg hv, total_filter, left_eq_add, or_iff_right hv]

def wireless : List Char :=
  "lo: 7 0 0 0 0 0 0 0 7 0 0 0 0 0 0 0\nwlo1: 5000 0 0 0 0 0 0 0 3000 0 0 0 0 0 0 0\n".toList

theorem wireless_left_out : ¬ ∀ text, Summed text := by
  intro h
  have hread : readCounters (.content wireless) = some (0, 0, false) := by decide
  have hright : total Interface.rx (relevant (interfaces wireless)) = 5000 := by decide
  have hsummed := h wireless
  rw [Summed, hread, hright, Option.map_some, Option.some.injEq, Prod.mk.injEq] at hsummed
  exact absurd hsummed.1 (by decide)

end EovpnPro.NetworkMonitor
