import Mathlib.Order.WithBot
import EovpnPro.StarredRows

namespace EovpnPro.LatencyLabels

open AutoConnect ListModels Runs ServerList StarredRows

variable {R : Type}

inductive Label (R : Type)
  | blank
  | measured (latency : R)
  | error
  deriving DecidableEq, Repr

def setLatency : Option R → Status → Label R
  | some latency, .measured => .measured latency
  | _, _ => .error

def rated (snapshot : SpeedTestSnapshot R) (c : ConfigName) : Option (Label R) :=
  (snapshot.get c.1).map fun measurement => setLatency measurement.latencyMs measurement.status

/-- The label of a row that is made anew. -/
def fresh (snapshot : SpeedTestSnapshot R) (c : ConfigName) : Label R := (rated snapshot c).getD .blank

/-- The rows of the list with their stars and labels. -/
structure Rows (R : Type) extends Window R where
  label : ConfigName → Label R

/-- The action goes through `_refresh_filter`, which applies the snapshot to the rows. -/
def refreshes (d : Desk R) : Action R → Bool
  | .search _ | .proto _ | .favoritesFilter | .star _ _ => true
  | .filter selected => !decide (d.filterDropdown = selected)
  | .tested _ cancelled _ => !cancelled
  | .sort _ _ | .load | .remove _ | .files _ | .stored _ => false

variable [LinearOrder R]

/-- `_apply_speed_snapshot_to_rows` leaves a row without a measurement as it is. -/
def relabel (w : Rows R) (a : Act R) (snapshot : SpeedTestSnapshot R) (c : ConfigName) : Label R :=
  if built w.toWindow a c then fresh snapshot c
  else if refreshes w.desk a.action then (rated snapshot c).getD (w.label c)
  else w.label c

def step (py : Python) (w : Rows R) (a : Act R) : Option (Rows R) :=
  (StarredRows.step py w.toWindow a).map fun t =>
    { toWindow := t, label := relabel w a t.desk.speedSnapshot }

/-- Each row of the list shows the measurement of its configuration. -/
def Truthful (w : Rows R) : Prop := ∀ c ∈ visible w.desk.model, w.label c = fresh w.desk.speedSnapshot c

def Label.reading : Label R → WithTop R
  | measured latency => latency
  | blank | error => ⊤

/-- Sorted by speed, the labels ascend down the list, those without a value last. -/
def Ascending (w : Rows R) : Prop :=
  w.desk.sortBySpeedActive = true →
    (visible w.desk.model).Pairwise fun a b => (w.label a).reading ≤ (w.label b).reading

/-- A test that is completed has a result for each row that stays and shows one. -/
def Measured (py : Python) (w : Rows R) (a : Act R) : Prop :=
  ∀ moved latencies, a.action = .tested moved false latencies →
    ∀ desk, ServerList.step py w.desk a.action = some desk → ∀ c ∈ visible desk.model,
      built w.toWindow a c = true ∨ w.label c = .blank ∨ (latencies.lookup c.1).isSome = true

variable {py : Python} {d : Desk R} {w t : Rows R} {a : Act R} {c : ConfigName} {snapshot : SpeedTestSnapshot R}

def measuredAfter (d : Desk R) : Action R → SpeedTestSnapshot R
  | .tested _ false latencies => d.speedSnapshot.replace latencies
  | _ => d.speedSnapshot

omit [LinearOrder R] in
theorem speedSnapshot_selectFilter (selected : Nat) (d : Desk R) :
    (selectFilter py selected d).speedSnapshot = d.speedSnapshot := by
  rw [selectFilter]
  split <;> rfl

theorem speedSnapshot_onSpeedTestComplete (moved : ConfigName → Bool) (cancelled : Bool)
    (latencies : LatencyMap R) (d : Desk R) :
    (onSpeedTestComplete py moved cancelled latencies d).speedSnapshot =
      measuredAfter d (.tested moved cancelled latencies) := by
  cases cancelled with
  | true => rfl
  | false =>
      rw [onSpeedTestComplete, if_neg Bool.false_ne_true]
      simp only [refreshFilter, updateFilterCount]
      split <;> rfl

theorem speedSnapshot_loadOnly (d : Desk R) : (loadOnly py d).speedSnapshot = d.speedSnapshot := by
  obtain ⟨model, cache, hload, -⟩ := loadOnly_eq py d
  rw [hload]
  rfl

theorem speedSnapshot_step {action : Action R} {desk : Desk R} (h : ServerList.step py d action = some desk) :
    desk.speedSnapshot = measuredAfter d action := by
  cases action with
  | search | proto | sort | remove | files | stored | star =>
      cases h
      rfl
  | filter selected =>
      cases h
      exact speedSnapshot_selectFilter selected d
  | favoritesFilter =>
      cases h
      simp only [toggleFavoritesFilter, refreshFilter, updateFilterCount, speedSnapshot_selectFilter, measuredAfter]
  | tested moved cancelled latencies =>
      cases h
      exact speedSnapshot_onSpeedTestComplete moved cancelled latencies d
  | load =>
      cases h
      exact speedSnapshot_loadOnly d

theorem lookup_map_snd {α β γ : Type} [BEq α] [LawfulBEq α] (f : α → β → γ) (entries : List (α × β))
    (key : α) :
    (entries.map fun entry => (entry.1, f entry.1 entry.2)).lookup key = (entries.lookup key).map (f key) := by
  induction entries with
  | nil => rfl
  | cons entry rest ih =>
      obtain ⟨other, value⟩ := entry
      simp only [List.map_cons, List.lookup_cons]
      cases hkey : key == other with
      | true =>
          obtain rfl := eq_of_beq hkey
          rfl
      | false => exact ih

omit [LinearOrder R] in
theorem get_replace (snapshot : SpeedTestSnapshot R) (latencies : LatencyMap R) (configId : String) :
    (snapshot.replace latencies).get configId = (latencies.lookup configId).map fun latency =>
      SpeedMeasurement.fromResult configId latency (snapshot.generation + 1) :=
  lookup_map_snd (fun configId latency => SpeedMeasurement.fromResult configId latency (snapshot.generation + 1))
    latencies configId

omit [LinearOrder R] in
theorem lookup_latencyMap (snapshot : SpeedTestSnapshot R) (configId : String) :
    snapshot.latencyMap.lookup configId = (snapshot.get configId).map SpeedMeasurement.latencyMs :=
  lookup_map_snd (fun _ => SpeedMeasurement.latencyMs) snapshot.measurements configId

omit [LinearOrder R] in
theorem rated_replace (snapshot : SpeedTestSnapshot R) (latencies : LatencyMap R) (c : ConfigName) :
    (rated (snapshot.replace latencies) c).isSome = (latencies.lookup c.1).isSome := by
  rw [rated, get_replace, Option.isSome_map, Option.isSome_map]

theorem step_eq (h : step py w a = some t) :
    ∃ desk, ServerList.step py w.desk a.action = some desk ∧ t.desk = desk ∧
      t.label = relabel w a (measuredAfter w.desk a.action) := by
  obtain ⟨u, hu, rfl⟩ := Option.map_eq_some_iff.mp h
  rw [StarredRows.step] at hu
  split at hu
  · obtain ⟨desk, hdesk, rfl⟩ := Option.map_eq_some_iff.mp hu
    refine ⟨desk, hdesk, rfl, ?_⟩
    rw [← speedSnapshot_step hdesk]
  · cases hu

omit [LinearOrder R] in
theorem visible_of_not_built (h : built w.toWindow a c = false) : c ∈ visible w.desk.model := by
  simp only [built, Bool.or_eq_false_iff, Bool.not_eq_false', decide_eq_true_eq] at h
  exact h.1.2

omit [LinearOrder R] in
theorem relabel_same (h : Truthful w) (hsame : snapshot = w.desk.speedSnapshot) :
    relabel w a snapshot c = fresh snapshot c := by
  subst hsame
  rw [relabel]
  split
  · rfl
  · next hbuilt =>
    have hlabel := h c (visible_of_not_built (Bool.eq_false_iff.mpr hbuilt))
    rw [hlabel]
    split
    · rw [fresh]
      cases rated w.desk.speedSnapshot c <;> rfl
    · rfl

omit [LinearOrder R] in
theorem relabel_replaced {moved : ConfigName → Bool} {latencies : LatencyMap R}
    (ha : a.action = .tested moved false latencies) :
    relabel w a (w.desk.speedSnapshot.replace latencies) c = fresh (w.desk.speedSnapshot.replace latencies) c ↔
      built w.toWindow a c = true ∨ w.label c = .blank ∨ (latencies.lookup c.1).isSome = true := by
  rw [relabel, ha]
  cases hbuilt : built w.toWindow a c with
  | true => exact iff_of_true rfl (.inl rfl)
  | false =>
      rw [if_neg Bool.false_ne_true, refreshes, Bool.not_false, if_pos rfl, fresh,
        ← rated_replace w.desk.speedSnapshot latencies c]
      cases rated (w.desk.speedSnapshot.replace latencies) c <;> simp

theorem truthful_step (h : Truthful w) (hstep : step py w a = some t) : Truthful t ↔ Measured py w a := by
  obtain ⟨desk, hdesk, rfl, hlabel⟩ := step_eq hstep
  have hsnapshot := speedSnapshot_step hdesk
  simp only [Truthful, hlabel, hsnapshot]
  cases haction : a.action with
  | tested moved cancelled latencies =>
      cases cancelled with
      | true =>
          refine iff_of_true (fun c _ => relabel_same h rfl) ?_
          rintro moved latencies htested
          cases haction.symm.trans htested
      | false =>
          simp only [measuredAfter, relabel_replaced haction]
          constructor
          · intro hall moved' latencies' htested desk hdesk' c hc
            cases haction.symm.trans htested
            cases hdesk.symm.trans hdesk'
            exact hall c hc
          · intro hmeasured c hc
            exact hmeasured moved latencies haction t.desk hdesk c hc
  | search | filter | proto | favoritesFilter | star | sort | load | remove | files | stored =>
      refine iff_of_true (fun c _ => relabel_same h rfl) ?_
      rintro moved latencies htested
      cases haction.symm.trans htested

def Sound (snapshot : SpeedTestSnapshot R) : Prop :=
  ∀ configId measurement, snapshot.get configId = some measurement →
    measurement.status = if measurement.latencyMs.isSome then .measured else .unreachable

omit [LinearOrder R] in
theorem sound_measuredAfter (h : Sound d.speedSnapshot) (action : Action R) :
    Sound (measuredAfter d action) := by
  cases action with
  | tested moved cancelled latencies =>
      cases cancelled with
      | true => exact h
      | false =>
          intro configId measurement hget
          rw [measuredAfter, get_replace] at hget
          obtain ⟨latency, -, rfl⟩ := Option.map_eq_some_iff.mp hget
          rfl
  | search | filter | proto | favoritesFilter | star | sort | load | remove | files | stored => exact h

omit [LinearOrder R] in
theorem reading_fresh (h : Sound snapshot) (c : ConfigName) :
    (fresh snapshot c).reading =
      (snapshot.latencyMap.lookup c.1).join.elim ⊤ fun latency => (latency : WithTop R) := by
  rw [fresh, rated, lookup_latencyMap]
  cases hget : snapshot.get c.1 with
  | none => rfl
  | some measurement =>
      have hstatus := h c.1 measurement hget
      simp only [Option.map_some, Option.getD_some, Option.join_some, hstatus]
      cases measurement.latencyMs <;> rfl

structure Kept (py : Python) (w : Rows R) : Prop where
  consistent : Consistent py w.desk
  sound : Sound w.desk.speedSnapshot

theorem Kept.step (h : Kept py w) (hstep : step py w a = some t) : Kept py t := by
  obtain ⟨desk, hdesk, rfl, -⟩ := step_eq hstep
  exact ⟨consistent_step h.consistent hdesk, speedSnapshot_step hdesk ▸ sound_measuredAfter h.sound a.action⟩

theorem Kept.ascending (h : Kept py w) (ht : Truthful w) : Ascending w := by
  intro hsort
  have hsub : (visible w.desk.model).Sublist (items w.desk.model) := List.filter_sublist.map Entry.item
  refine (h.consistent.sorted.sublist hsub).imp_of_mem ?_
  intro a b ha hb hab
  rw [before, hsort, inOrder_iff, h.consistent.latencies] at hab
  rw [ht a ha, ht b hb, reading_fresh h.sound, reading_fresh h.sound]
  revert hab
  generalize (w.desk.speedSnapshot.latencyMap.lookup a.1).join = x
  generalize (w.desk.speedSnapshot.latencyMap.lookup b.1).join = y
  cases x with
  | none =>
      cases y with
      | none => exact fun _ => le_refl _
      | some y => exact False.elim
  | some x =>
      cases y with
      | none => exact fun _ => le_top
      | some y => exact fun hab => WithTop.coe_le_coe.mpr (hab.elim le_of_lt fun h => le_of_eq h.1)

def opened (py : Python) (settings : Settings.Store) (disk : Disk) : Rows R where
  toWindow := StarredRows.opened py settings disk
  label _ := .blank

theorem speedSnapshot_opened (py : Python) (settings : Settings.Store) (disk : Disk) :
    (opened py settings disk : Rows R).desk.speedSnapshot = ⟨0, []⟩ :=
  speedSnapshot_loadOnly (unloaded settings disk)

theorem opened_kept (py : Python) (settings : Settings.Store) (disk : Disk) :
    Kept py (opened py settings disk : Rows R) where
  consistent := opened_consistent py settings disk
  sound := by
    rw [speedSnapshot_opened]
    intro configId measurement h
    cases h

theorem opened_truthful (py : Python) (settings : Settings.Store) (disk : Disk) :
    Truthful (opened py settings disk : Rows R) := by
  intro c _
  rw [speedSnapshot_opened]
  rfl

/-- Each row shows the measurement that its configuration has, and sorted by speed the
column of the labels ascends, in every state of exactly the runs in which a test that is
completed has a result for each row that stays and shows one. -/
theorem labels_truthful_iff (py : Python) (settings : Settings.Store) (disk : Disk) (acts : List (Act R)) :
    AllStates (step py) (fun w => Truthful w ∧ Ascending w) (opened py settings disk) acts ↔
      AllSteps (step py) (Measured py) (opened py settings disk) acts :=
  allStates_iff_allSteps (I := fun w => Kept py w ∧ Truthful w) (fun _ h => ⟨h.2, h.1.ascending h.2⟩)
    (fun _ _ _ h hs hm => ⟨h.1.step hs, (truthful_step h.2 hs).mpr hm⟩)
    (fun _ _ _ h hs ht => (truthful_step h.2 hs).mp ht.1) acts
    ⟨opened_kept py settings disk, opened_truthful py settings disk⟩

end EovpnPro.LatencyLabels
