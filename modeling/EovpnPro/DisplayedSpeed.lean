import EovpnPro.NetworkMonitor
import EovpnPro.Runs
import Mathlib.Algebra.BigOperators.Group.Finset.Piecewise
import Mathlib.Algebra.Order.BigOperators.Group.Finset
import Mathlib.Tactic.Linarith

namespace EovpnPro.DisplayedSpeed

open PyText NetworkMonitor Runs

/-- The interfaces of the system at one tick, in the order of `/proc/net/dev`. The
kernel gives each a number that it does not give to another one later. -/
structure Reading where
  order : List Nat
  nodup : order.Nodup := by decide
  name : Nat → List Char
  rx : Nat → Nat
  tx : Nat → Nat
  now : Rat
  text : List Char
  rendered : interfaces text = order.map fun i => ⟨name i, rx i, tx i⟩

def Reading.counted (r : Reading) : Finset Nat :=
  (if r.order.any fun i => isVpn (r.name i) then r.order.filter fun i => isVpn (r.name i)
    else r.order.filter fun i => !occursIn "lo" (r.name i)).toFinset

def Follows (old new : Reading) : Prop :=
  old.now < new.now ∧ ∀ i ∈ old.order, i ∈ new.order → old.rx i ≤ new.rx i ∧ old.tx i ≤ new.tx i

instance (old new : Reading) : Decidable (Follows old new) := inferInstanceAs (Decidable (_ ∧ _))

def increase (counter : Reading → Nat → Nat) (old new : Reading) : Int :=
  ∑ i ∈ new.counted ∩ old.counted, ((counter new i : Int) - counter old i) +
    ∑ i ∈ (new.counted \ old.counted).filter (· ∉ old.order), (counter new i : Int)

def speed (counter : Reading → Nat → Nat) (old new : Reading) : Rat :=
  increase counter old new / (new.now - old.now)

/-- The monitor, the reading of its last tick, and the speeds that are due after it. -/
structure Watching where
  monitor : Monitor
  last : Option Reading := none
  due : Option (Rat × Rat) := none

def step (s : Watching) (r : Reading) : Option Watching :=
  if ∀ old ∈ s.last, Follows old r then
    some
      { monitor := tick s.monitor (.content r.text) r.now
        last := some r
        due := s.last.map fun old => (speed Reading.rx old r, speed Reading.tx old r) }
  else none

/-- The labels show the speeds that are due. -/
def Shown (s : Watching) : Prop :=
  ∀ speeds ∈ s.due, s.monitor.download = some speeds.1 ∧ s.monitor.upload = some speeds.2

def gained (counter : Reading → Nat → Nat) (old new : Reading) : Int :=
  ∑ i ∈ (new.counted \ old.counted).filter (· ∈ old.order), (counter new i : Int)

def lost (counter : Reading → Nat → Nat) (old new : Reading) : Int :=
  ∑ i ∈ old.counted \ new.counted, (counter old i : Int)

def Balanced (counter : Reading → Nat → Nat) (old new : Reading) : Prop :=
  gained counter old new = lost counter old new ∨
    increase counter old new = 0 ∧ gained counter old new ≤ lost counter old new

def Silent (r : Reading) : Prop := ∀ i ∈ r.counted, r.rx i = 0 ∧ r.tx i = 0

/-- After a silent reading the labels are not written, so they have to show already
what is due. -/
def Fair (s : Watching) (r : Reading) : Prop :=
  ∀ old ∈ s.last,
    (Silent old → s.monitor.download = some (speed Reading.rx old r) ∧
      s.monitor.upload = some (speed Reading.tx old r)) ∧
    (¬ Silent old → Balanced Reading.rx old r ∧ Balanced Reading.tx old r)

variable {old new r : Reading} {s t : Watching} {counter : Reading → Nat → Nat}

def sum (counter : Reading → Nat → Nat) (r : Reading) : Int := ∑ i ∈ r.counted, (counter r i : Int)

theorem sum_sub (counter : Reading → Nat → Nat) (old new : Reading) :
    sum counter new - sum counter old =
      increase counter old new + (gained counter old new - lost counter old new) := by
  have hnew := Finset.sum_inter_add_sum_sdiff new.counted old.counted fun i => (counter new i : Int)
  have hold := Finset.sum_inter_add_sum_sdiff old.counted new.counted fun i => (counter old i : Int)
  have hboth := Finset.sum_sub_distrib (s := new.counted ∩ old.counted)
    (fun i => (counter new i : Int)) fun i => (counter old i : Int)
  have hfresh := Finset.sum_filter_add_sum_filter_not (new.counted \ old.counted) (· ∈ old.order)
    fun i => (counter new i : Int)
  rw [Finset.inter_comm] at hold
  simp only [sum, increase, gained, lost]
  omega

theorem total_counted (r : Reading) (counter : Reading → Nat → Nat) (value : Interface → Int)
    (hv : ∀ i, value ⟨r.name i, r.rx i, r.tx i⟩ = counter r i) :
    total value (NetworkMonitor.counted (interfaces r.text)) = sum counter r := by
  let found : List Nat :=
    if r.order.any fun i => isVpn (r.name i) then r.order.filter fun i => isVpn (r.name i)
    else r.order.filter fun i => !occursIn "lo" (r.name i)
  have hfound : NetworkMonitor.counted (interfaces r.text) =
      found.map fun i => ⟨r.name i, r.rx i, r.tx i⟩ := by
    rw [r.rendered, NetworkMonitor.counted, List.any_map]
    simp only [List.filter_map, Function.comp_def, found]
    split_ifs <;> rfl
  have hnodup : found.Nodup := by
    simp only [found]
    split_ifs
    · exact r.nodup.filter _
    · exact r.nodup.filter _
  have hvalue : (fun i => value ⟨r.name i, r.rx i, r.tx i⟩) = fun i => (counter r i : Int) := funext hv
  rw [hfound, total, List.map_map, Function.comp_def, hvalue]
  exact (List.sum_toFinset _ hnodup).symm

theorem mem_order_of_counted {i : Nat} (h : i ∈ r.counted) : i ∈ r.order := by
  rw [Reading.counted, List.mem_toFinset] at h
  split_ifs at h
  · exact (List.mem_filter.mp h).1
  · exact (List.mem_filter.mp h).1

theorem increase_nonneg (h : ∀ i ∈ old.order, i ∈ new.order → counter old i ≤ counter new i) :
    0 ≤ increase counter old new := by
  refine add_nonneg (Finset.sum_nonneg fun i hi => ?_) (Finset.sum_nonneg fun i _ => Int.natCast_nonneg _)
  obtain ⟨hnew, hold⟩ := Finset.mem_inter.mp hi
  have := h i (mem_order_of_counted hold) (mem_order_of_counted hnew)
  omega

theorem silent_iff : ¬(sum Reading.rx r > 0 ∨ sum Reading.tx r > 0) ↔ Silent r := by
  have hzero (counter : Reading → Nat → Nat) : ¬ sum counter r > 0 ↔ ∀ i ∈ r.counted, counter r i = 0 := by
    have hnonneg : 0 ≤ sum counter r := Finset.sum_nonneg fun i _ => Int.natCast_nonneg _
    rw [gt_iff_lt, not_lt, hnonneg.ge_iff_eq', sum,
      Finset.sum_eq_zero_iff_of_nonneg fun i _ => Int.natCast_nonneg _]
    simp only [Int.natCast_eq_zero]
  rw [not_or, hzero, hzero, Silent, ← forall₂_and]

theorem max_eq_iff {due extra : Int} {dt : Rat} (hdt : 0 < dt) (hdue : 0 ≤ due) :
    max 0 (((due + extra : Int) : Rat) / dt) = due / dt ↔ extra = 0 ∨ due = 0 ∧ extra ≤ 0 := by
  by_cases hneg : due + extra ≤ 0
  · have hquot : ((due + extra : Int) : Rat) / dt ≤ 0 :=
      div_nonpos_of_nonpos_of_nonneg (by exact_mod_cast hneg) hdt.le
    rw [max_eq_left hquot, eq_comm, div_eq_zero_iff, or_iff_left hdt.ne', Int.cast_eq_zero]
    omega
  · have hquot : 0 ≤ ((due + extra : Int) : Rat) / dt :=
      div_nonneg (by exact_mod_cast (not_le.mp hneg).le) hdt.le
    rw [max_eq_right hquot, div_left_inj' hdt.ne', Int.cast_inj]
    omega

structure Kept (s : Watching) : Prop where
  first : s.last = none → s.monitor.lastTime = none ∧ s.due = none
  rx : ∀ old ∈ s.last, s.monitor.lastRx = sum Reading.rx old
  tx : ∀ old ∈ s.last, s.monitor.lastTx = sum Reading.tx old
  time : ∀ old ∈ s.last, s.monitor.lastTime = some old.now

theorem tick_content (m : Monitor) (r : Reading) :
    tick m (.content r.text) r.now =
      let shown := m.lastTime.elim m fun last =>
        showSpeeds m (sum Reading.rx r) (sum Reading.tx r) (r.now - last)
      { shown with
        lastRx := sum Reading.rx r, lastTx := sum Reading.tx r, lastTime := some r.now } := by
  rw [tick, readCounters_content, total_counted r Reading.rx _ fun _ => rfl,
    total_counted r Reading.tx _ fun _ => rfl]

theorem speeds_iff (hf : Follows old new) :
    (max 0 ((sum Reading.rx new - sum Reading.rx old : Int) / elapsed (new.now - old.now)) =
        speed Reading.rx old new ↔ Balanced Reading.rx old new) ∧
      (max 0 ((sum Reading.tx new - sum Reading.tx old : Int) / elapsed (new.now - old.now)) =
        speed Reading.tx old new ↔ Balanced Reading.tx old new) := by
  have hdt : 0 < new.now - old.now := sub_pos.mpr hf.1
  have hspeed (counter : Reading → Nat → Nat)
      (hc : ∀ i ∈ old.order, i ∈ new.order → counter old i ≤ counter new i) :
      max 0 ((sum counter new - sum counter old : Int) / elapsed (new.now - old.now)) =
        speed counter old new ↔ Balanced counter old new := by
    rw [elapsed, if_neg (not_le.mpr hdt), sum_sub, speed, max_eq_iff hdt (increase_nonneg hc), Balanced]
    omega
  exact ⟨hspeed Reading.rx fun i ho hn => (hf.2 i ho hn).1,
    hspeed Reading.tx fun i ho hn => (hf.2 i ho hn).2⟩

theorem step_iff (h : Kept s) (ht : step s r = some t) : Kept t ∧ (Shown t ↔ Fair s r) := by
  simp only [step] at ht
  split_ifs at ht with hf
  obtain rfl := Option.some.inj ht
  refine ⟨⟨fun hn => (Option.some_ne_none _ hn).elim, ?_, ?_, ?_⟩, ?_⟩
  · rintro old ⟨⟩
    simp only [tick_content]
  · rintro old ⟨⟩
    simp only [tick_content]
  · rintro old ⟨⟩
    simp only [tick_content]
  cases hl : s.last with
  | none => simp [Shown, Fair, hl]
  | some old =>
      obtain ⟨hrx, htx⟩ := speeds_iff (hf old hl)
      rw [Int.cast_sub] at hrx htx
      simp only [Shown, Fair, hl, Option.map_some, Option.mem_some_iff, forall_eq', tick_content,
        h.time old hl, Option.elim, showSpeeds, h.rx old hl, h.tx old hl]
      by_cases hs : Silent old
      · simp [if_neg (silent_iff.mpr hs), hs]
      · simp [if_pos (not_not.mp (mt silent_iff.mp hs)), hs, hrx, htx]

/-- In every run of ticks, the speeds shown are the ones that are due from the second
tick on exactly when each tick is fair. -/
theorem shown_iff_fair (m : Monitor) (readings : List Reading) :
    AllStates step Shown { monitor := start m } readings ↔
      AllSteps step Fair { monitor := start m } readings := by
  refine allStates_iff_allSteps (I := fun s => Kept s ∧ Shown s) (fun _ h => h.2) ?_ ?_ readings ?_
  · intro s r t h ht hg
    obtain ⟨hk, hs⟩ := step_iff h.1 ht
    exact ⟨hk, hs.mpr hg⟩
  · intro s r t h ht hs
    exact (step_iff h.1 ht).2.mp hs
  · refine ⟨⟨fun _ => ⟨rfl, rfl⟩, ?_, ?_, ?_⟩, fun speeds hd => by cases hd⟩
    · rintro old ⟨⟩
    · rintro old ⟨⟩
    · rintro old ⟨⟩

def tunnel (text : List Char) (rx : Nat) (now : Rat)
    (rendered : interfaces text = [⟨"tun0".toList, rx, 0⟩]) : Reading :=
  { order := [0], nodup := List.nodup_singleton 0, name := fun _ => "tun0".toList, rx := fun _ => rx,
    tx := fun _ => 0, now, text, rendered }

theorem rendered_idle : interfaces "tun0: 0 0 0 0 0 0 0 0 0 0".toList = [⟨"tun0".toList, 0, 0⟩] := by decide

theorem rendered_busy :
    interfaces "tun0: 1000 0 0 0 0 0 0 0 0 0".toList = [⟨"tun0".toList, 1000, 0⟩] := by decide

def firstTraffic : List Reading := [tunnel _ 0 1 rendered_idle, tunnel _ 1000 2 rendered_busy]

theorem first_traffic_hidden :
    ¬ ∀ (m : Monitor) (readings : List Reading), AllStates step Shown { monitor := start m } readings := by
  intro h
  have hrun : (run step { monitor := start {} } firstTraffic).map
      (fun s => (s.due.isSome, s.monitor.download)) = some (true, none) := by decide
  obtain ⟨s, hs, hend⟩ := Option.map_eq_some_iff.mp hrun
  obtain ⟨hdue, hdownload⟩ := Prod.mk.inj hend
  obtain ⟨speeds, hspeeds⟩ := Option.isSome_iff_exists.mp hdue
  have hshown := ((h {} firstTraffic).last hs speeds hspeeds).1
  rw [hdownload] at hshown
  cases hshown

end EovpnPro.DisplayedSpeed
