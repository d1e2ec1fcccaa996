import EovpnPro.ServerList

namespace EovpnPro.StarredRows

open AutoConnect ListModels Runs ServerList Settings

variable {R : Type} [LinearOrder R]

/-- The window with the stars of its rows, and the favourites that `load_only` read for
the rows that are made of its items. -/
structure Window (R : Type) where
  desk : Desk R
  favorites : Finset String
  star : ConfigName → Bool

/-- An action, and the rows that the list box makes anew while it goes through the
changes of the model. -/
structure Act (R : Type) where
  action : Action R
  rebuilt : ConfigName → Bool

def isLoad : Action R → Bool
  | .load => true
  | _ => false

/-- A row that was not on the screen, or is made anew, takes its star from the
favourites of the load. -/
def built (w : Window R) (a : Act R) (c : ConfigName) : Bool :=
  isLoad a.action || !decide (c ∈ visible w.desk.model) || a.rebuilt c

/-- The star of a row after its button was pressed. -/
def pressed (w : Window R) (c : ConfigName) : Action R → Bool
  | .star filename active => if c.1 = filename then active else w.star c
  | _ => w.star c

def enabled (w : Window R) : Action R → Prop
  | .star filename active => ∃ c ∈ visible w.desk.model, c.1 = filename ∧ w.star c = !active
  | _ => True

instance (w : Window R) (action : Action R) : Decidable (enabled w action) := by
  cases action <;> unfold enabled <;> infer_instance

def step (py : Python) (w : Window R) (a : Act R) : Option (Window R) :=
  if enabled w a.action then
    (ServerList.step py w.desk a.action).map fun desk =>
      let favorites := if isLoad a.action then getFavorites w.desk.settings else w.favorites
      { desk, favorites
        star := fun c => if built w a c then decide (c.1 ∈ favorites) else pressed w c a.action }
  else none

/-- Each row of the list has the star that its configuration has. -/
def Truthful (w : Window R) : Prop :=
  ∀ c ∈ visible w.desk.model, w.star c = true ↔ c.1 ∈ getFavorites w.desk.settings

/-- The favourites as they are stored after an action. -/
def storedAfter (w : Window R) : Action R → Finset String
  | .star filename active =>
      if active then insert filename (getFavorites w.desk.settings) else (getFavorites w.desk.settings).erase filename
  | .stored settings => getFavorites settings
  | _ => getFavorites w.desk.settings

/-- A row that is made anew is for a configuration whose star is the one of the load, and
one that is not made anew is not starred from elsewhere. -/
def Faithful (py : Python) (w : Window R) (a : Act R) : Prop :=
  ∀ desk, ServerList.step py w.desk a.action = some desk → ∀ c ∈ visible desk.model,
    if built w a c then
      isLoad a.action = true ∨ (c.1 ∈ w.favorites ↔ c.1 ∈ storedAfter w a.action)
    else
      ∀ settings, a.action = .stored settings → (c.1 ∈ getFavorites settings ↔ c.1 ∈ getFavorites w.desk.settings)

variable {py : Python} {w t : Window R} {a : Act R}

theorem settings_loadOnly (py : Python) (d : Desk R) : (loadOnly py d).settings = d.settings := by
  obtain ⟨model, cache, hload, -⟩ := loadOnly_eq py d
  rw [hload]
  rfl

omit [LinearOrder R] in
theorem settings_selectFilter (py : Python) (selected : Nat) (d : Desk R) :
    (selectFilter py selected d).settings = d.settings := by
  rw [selectFilter]
  split <;> rfl

theorem settings_onSpeedTestComplete (py : Python) (moved : ConfigName → Bool) (cancelled : Bool)
    (latencies : LatencyMap R) (d : Desk R) :
    (onSpeedTestComplete py moved cancelled latencies d).settings = d.settings := by
  rw [onSpeedTestComplete]
  split
  · rfl
  · simp only [refreshFilter, updateFilterCount]
    split <;> rfl

theorem getFavorites_step {desk : Desk R} {action : Action R}
    (h : ServerList.step py w.desk action = some desk) :
    getFavorites desk.settings = storedAfter w action := by
  cases action with
  | search | proto | sort | remove | files | stored =>
      cases h
      rfl
  | filter selected =>
      cases h
      rw [settings_selectFilter]
      rfl
  | favoritesFilter =>
      cases h
      simp only [toggleFavoritesFilter, refreshFilter, updateFilterCount, settings_selectFilter, storedAfter]
  | star filename active =>
      cases h
      exact getFavorites_toggle py filename active w.desk.settings
  | tested moved cancelled latencies =>
      cases h
      rw [settings_onSpeedTestComplete]
      rfl
  | load =>
      cases h
      rw [settings_loadOnly]
      rfl

omit [LinearOrder R] in
theorem pressed_iff {c : ConfigName} (hc : w.star c = true ↔ c.1 ∈ getFavorites w.desk.settings)
    (action : Action R) :
    (pressed w c action = true ↔ c.1 ∈ storedAfter w action) ↔
      ∀ settings, action = .stored settings →
        (c.1 ∈ getFavorites settings ↔ c.1 ∈ getFavorites w.desk.settings) := by
  cases action with
  | star filename active =>
      refine ⟨(fun _ _ h => by cases h), fun _ => ?_⟩
      simp only [pressed, storedAfter]
      by_cases hname : c.1 = filename
      · rw [if_pos hname, hname]
        cases active <;> simp
      · rw [if_neg hname, hc]
        cases active <;> simp [hname]
  | stored settings =>
      constructor
      · intro h other heq
        cases heq
        exact h.symm.trans hc
      · intro h
        exact hc.trans (h settings rfl).symm
  | search | filter | proto | favoritesFilter | sort | tested | load | remove | files =>
      exact ⟨(fun _ _ h => by cases h), fun _ => hc⟩

theorem truthful_step (h : Truthful w) (hstep : step py w a = some t) : Truthful t ↔ Faithful py w a := by
  rw [step] at hstep
  split at hstep
  · obtain ⟨desk, hdesk, rfl⟩ := Option.map_eq_some_iff.mp hstep
    have hiff : Faithful py w a ↔ ∀ c ∈ visible desk.model,
        if built w a c then
          isLoad a.action = true ∨ (c.1 ∈ w.favorites ↔ c.1 ∈ storedAfter w a.action)
        else
          ∀ settings, a.action = .stored settings →
            (c.1 ∈ getFavorites settings ↔ c.1 ∈ getFavorites w.desk.settings) := by
      constructor
      · exact fun hf => hf desk hdesk
      · intro hf desk' hdesk'
        cases hdesk.symm.trans hdesk'
        exact hf
    rw [hiff, Truthful]
    refine forall₂_congr fun c _ => ?_
    simp only [getFavorites_step hdesk]
    cases hbuilt : built w a c with
    | true =>
        simp only [if_true, decide_eq_true_eq]
        cases hload : isLoad a.action with
        | false => simp
        | true =>
            -- What the load has read is what is stored.
            cases haction : a.action with
            | load => simp [storedAfter]
            | _ => rw [haction] at hload; cases hload
    | false =>
        simp only [Bool.false_eq_true, if_false]
        have hc : c ∈ visible w.desk.model := by
          simp only [built, Bool.or_eq_false_iff, Bool.not_eq_false', decide_eq_true_eq] at hbuilt
          exact hbuilt.1.2
        exact pressed_iff (h c hc) a.action
  · cases hstep

def opened (py : Python) (settings : Store) (disk : Disk) : Window R where
  desk := ServerList.opened py settings disk
  favorites := getFavorites settings
  star c := decide (c.1 ∈ getFavorites settings)

theorem opened_truthful (py : Python) (settings : Store) (disk : Disk) :
    Truthful (opened py settings disk : Window R) := by
  intro c _
  have hsettings : (opened py settings disk : Window R).desk.settings = settings :=
    settings_loadOnly py (unloaded settings disk)
  rw [hsettings]
  exact decide_eq_true_iff

/-- The stars of the rows are those that are stored in every state of exactly the runs in
which no row is made anew for a configuration that was starred or unstarred since
the list was loaded, and no row on the screen is starred from elsewhere. -/
theorem stars_truthful_iff (py : Python) (settings : Store) (disk : Disk) (acts : List (Act R)) :
    AllStates (step py) Truthful (opened py settings disk) acts ↔
      AllSteps (step py) (Faithful py) (opened py settings disk) acts :=
  allStates_iff_allSteps (I := Truthful) (fun _ h => h)
    (fun _ _ _ h hs hf => (truthful_step h hs).mpr hf) (fun _ _ _ h hs ht => (truthful_step h hs).mp ht) acts
    (opened_truthful py settings disk)

def word (name : String) : Action R → Option Bool
  | .star filename active => if filename = name then some active else none
  | .stored settings => some (decide (name ∈ getFavorites settings))
  | _ => none

omit [LinearOrder R] in
theorem mem_storedAfter (name : String) (w : Window R) (action : Action R) :
    name ∈ storedAfter w action ↔
      (word name action).getD (decide (name ∈ getFavorites w.desk.settings)) = true := by
  cases action with
  | star filename active =>
      simp only [storedAfter, word]
      by_cases hname : filename = name
      · rw [if_pos hname, hname]
        cases active <;> simp
      · rw [if_neg hname]
        cases active <;> simp [Ne.symm hname]
  | stored settings => simp [storedAfter, word]
  | search | filter | proto | favoritesFilter | sort | tested | load | remove | files =>
      simp [storedAfter, word]

/-- After any run the last action that was about a configuration says whether it is a
favourite. -/
theorem last_word_stored (py : Python) (d : Desk R) (actions : List (Action R)) :
    ∃ t, run (ServerList.step py) d actions = some t ∧ ∀ name, name ∈ getFavorites t.settings ↔
      ((actions.filterMap (word name)).getLast?).getD (decide (name ∈ getFavorites d.settings)) = true := by
  induction actions generalizing d with
  | nil => exact ⟨d, rfl, fun name => by simp⟩
  | cons action actions ih =>
      obtain ⟨m, hm⟩ : ∃ m, ServerList.step py d action = some m := by
        cases action <;> exact ⟨_, rfl⟩
      obtain ⟨t, ht, hwords⟩ := ih m
      refine ⟨t, by rw [run, hm]; exact ht, fun name => ?_⟩
      have hfirst := mem_storedAfter name ⟨d, ∅, fun _ => false⟩ action
      rw [← getFavorites_step (w := ⟨d, ∅, fun _ => false⟩) hm] at hfirst
      rw [hwords name]
      cases hword : word name action with
      | none =>
          rw [hword] at hfirst
          simp only [List.filterMap_cons_none hword, hfirst, Option.getD_none, Bool.decide_eq_true]
      | some said =>
          rw [hword] at hfirst
          rw [List.filterMap_cons_some hword, List.getLast?_cons]
          simp only [hfirst, Option.getD_some, Bool.decide_eq_true]

end EovpnPro.StarredRows
