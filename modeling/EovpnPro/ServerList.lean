import Mathlib.Data.Finset.Sort
import EovpnPro.ListModels
import EovpnPro.ProtoOrder
import EovpnPro.Runs
import EovpnPro.Settings
import EovpnPro.SpeedOrder

namespace EovpnPro.ServerList

open AutoConnect ListModels OvpnParser ProtoOrder PyText Runs Settings SpeedOrder

variable {R : Type}

/-- A name that `load_only` makes an item of. -/
abbrev ConfigName := { name : String // ".ovpn".toList <:+ name.toList }

/-- The names in the managed directory, with the lines of those that can be read. -/
structure Disk where
  entries : List (String × Option (List (List Char)))
  nodup : (entries.map Prod.fst).Nodup

inductive FilterMode
  | all
  | favorites
  | online
  | offline
  deriving DecidableEq, Repr

def filterModes : List FilterMode := [.all, .favorites, .online, .offline]

def protoModes : List ProtoMode := [.all, .only .tcp, .only .udp]

inductive Status
  | measured
  | unreachable
  deriving DecidableEq, Repr

structure SpeedMeasurement (R : Type) where
  configId : String
  latencyMs : Option R
  status : Status
  testGeneration : Nat

/-- `SpeedMeasurement.from_result`, which the snapshot calls without an error. -/
def SpeedMeasurement.fromResult (configId : String) (latencyMs : Option R) (generation : Nat) :
    SpeedMeasurement R :=
  ⟨configId, latencyMs, if latencyMs.isSome then .measured else .unreachable, generation⟩

structure SpeedTestSnapshot (R : Type) where
  generation : Nat
  measurements : List (String × SpeedMeasurement R)

def SpeedTestSnapshot.replace (snapshot : SpeedTestSnapshot R) (results : LatencyMap R) : SpeedTestSnapshot R where
  generation := snapshot.generation + 1
  measurements := results.map fun result =>
    (result.1, SpeedMeasurement.fromResult result.1 result.2 (snapshot.generation + 1))

def SpeedTestSnapshot.get (snapshot : SpeedTestSnapshot R) (configId : String) : Option (SpeedMeasurement R) :=
  snapshot.measurements.lookup configId

def SpeedTestSnapshot.latencyMap (snapshot : SpeedTestSnapshot R) : LatencyMap R :=
  snapshot.measurements.map fun entry => (entry.1, entry.2.latencyMs)

/-- The list of servers, its search bar, and what they are computed from. No code reads
`loaded`: it is the directory as the list was loaded from it. -/
structure Desk (R : Type) where
  settings : Store
  disk : Disk
  loaded : Disk
  configs : List ConfigName
  model : List (Entry ConfigName)
  protoCache : List (String × Finset Proto)
  searchText : List Char
  filterMode : FilterMode
  protoMode : ProtoMode
  favoritesCache : Finset String
  speedSnapshot : SpeedTestSnapshot R
  latencies : LatencyMap R
  sortBySpeedActive : Bool
  filterDropdown : Nat
  filterCount : Option (Nat × Nat)
  noConfigs : Bool

/-- `str.lower`, the digits of the parser, and the text of a value that is no string. -/
structure Python where
  lower : List Char → List Char
  digits : Digits
  repr : Value → String

def matchesServerFilter (py : Python) (name : String) (search : List Char) (mode : FilterMode)
    (favorites : Finset String) (latencies : LatencyMap R) (protoMode : ProtoMode)
    (protocols : Finset Proto) : Bool :=
  if search ≠ [] ∧ ¬py.lower search <:+: py.lower name.toList then false
  else if mode = .favorites ∧ name ∉ favorites then false
  else if mode = .online ∧ (latencies.lookup name).join = none then false
  else if mode = .offline ∧ (latencies.lookup name).join ≠ none then false
  else matchesProto protoMode protocols

/-- `get_favorites` -/
def getFavorites (settings : Store) : Finset String :=
  match getSetting settings .favorites with
  | .list xs => (xs.map fun x => match x with | .str s => s | _ => "").toFinset
  | _ => ∅

def toggleFavorite (py : Python) (filename : String) (favorite : Bool) (settings : Store) : Store :=
  let favs := getFavorites settings
  let favs := if favorite then insert filename favs else favs.erase filename
  match setSetting py.repr settings .favorites (.list (favs.sort.map .str)) with
  | .ok settings => settings
  | .error _ => settings

/-- `parse_ovpn_protocols` of a name in the directory. -/
def protocolsOf (py : Python) (disk : Disk) (name : String) : Finset Proto :=
  parseOvpnProtocols py.digits (disk.entries.lookup name).join

/-- `protocols_for` -/
def protocolsFor (py : Python) (d : Desk R) (name : String) : Finset Proto :=
  (d.protoCache.lookup name).getD (protocolsOf py d.disk name)

/-- What `protocols_for` leaves in the cache when it has been asked for some names. -/
def remember (py : Python) (disk : Disk) (cache : List (String × Finset Proto)) (names : List ConfigName) :
    List (String × Finset Proto) :=
  names.foldl (fun cache name =>
    if (cache.lookup name.1).isSome then cache else (name.1, protocolsOf py disk name.1) :: cache) cache

/-- `list_filter_match` -/
def listFilterMatch (py : Python) (d : Desk R) (name : ConfigName) : Bool :=
  matchesServerFilter py name.1 d.searchText d.filterMode d.favoritesCache d.latencies d.protoMode
    (protocolsFor py d name.1)

variable [LinearOrder R]

/-- The order that `config_item_sort_func` gives. -/
def inOrder (active : Bool) (latencies : LatencyMap R) (a b : ConfigName) : Bool :=
  configItemSortFunc active latencies a.1 b.1 ≠ .gt

def before (d : Desk R) : ConfigName → ConfigName → Bool := inOrder d.sortBySpeedActive d.latencies

def updateFilterCount (d : Desk R) : Desk R :=
  { d with filterCount := some ((visible d.model).length, d.configs.length), noConfigs := d.configs.isEmpty }

def refreshFilter (py : Python) (d : Desk R) : Desk R :=
  let d := { d with favoritesCache := getFavorites d.settings }
  updateFilterCount
    { d with
      model := refilter (listFilterMatch py d) d.model
      protoCache := remember py d.disk d.protoCache (items d.model) }

/-- The moved items are asked for again, by the model of the filter. -/
def refreshSorter (py : Python) (moved : ConfigName → Bool) (d : Desk R) : Desk R :=
  { d with
    model := resort (before d) (listFilterMatch py d) moved d.model
    protoCache := remember py d.disk d.protoCache ((items d.model).filter moved) }

def onSearchChanged (py : Python) (text : List Char) (d : Desk R) : Desk R :=
  refreshFilter py { d with searchText := py.lower (strip text) }

def onFilterChanged (py : Python) (selected : Nat) (d : Desk R) : Desk R :=
  refreshFilter py { d with filterMode := (filterModes[selected]?).getD d.filterMode }

def onProtoFilterChanged (py : Python) (selected : Nat) (d : Desk R) : Desk R :=
  refreshFilter py { d with protoMode := (protoModes[selected]?).getD .all }

def selectFilter (py : Python) (selected : Nat) (d : Desk R) : Desk R :=
  if d.filterDropdown = selected then d else onFilterChanged py selected { d with filterDropdown := selected }

def toggleFavoritesFilter (py : Python) (d : Desk R) : Desk R :=
  let d := { d with filterMode := if d.filterMode = .favorites then .all else .favorites }
  refreshFilter py (selectFilter py (filterModes.idxOf d.filterMode) d)

def onFavoriteToggled (py : Python) (filename : String) (active : Bool) (d : Desk R) : Desk R :=
  refreshFilter py { d with settings := toggleFavorite py filename active d.settings }

def onSortToggled (py : Python) (moved : ConfigName → Bool) (active : Bool) (d : Desk R) : Desk R :=
  refreshSorter py moved { d with sortBySpeedActive := active }

def replaceSpeeds (latencies : LatencyMap R) (d : Desk R) : Desk R :=
  let snapshot := d.speedSnapshot.replace latencies
  { d with speedSnapshot := snapshot, latencies := snapshot.latencyMap }

/-- What `on_speed_test_complete` does to the list. -/
def onSpeedTestComplete (py : Python) (moved : ConfigName → Bool) (cancelled : Bool) (latencies : LatencyMap R)
    (d : Desk R) : Desk R :=
  if cancelled then d
  else
    let d := replaceSpeeds latencies d
    refreshFilter py (if d.sortBySpeedActive then refreshSorter py moved d else d)

/-- `liststore.append`, through the sorter and the filter. -/
def appendItem (py : Python) (d : Desk R) (name : ConfigName) : Desk R :=
  { d with
    model := append (before d) (listFilterMatch py d) name d.model
    protoCache := remember py d.disk d.protoCache [name] }

def listConfigs (disk : Disk) : List ConfigName :=
  ((disk.entries.map Prod.fst).filterMap fun name =>
    if h : ".ovpn".toList <:+ name.toList then some ⟨name, h⟩ else none).mergeSort fun a b => decide (a.1 ≤ b.1)

def loadOnly (py : Python) (d : Desk R) : Desk R :=
  let configs := listConfigs d.disk
  updateFilterCount (configs.foldl (appendItem py)
    { d with loaded := d.disk, configs := configs, model := [], protoCache := [] })

/-- With `remove_path` the directory is wiped as well. -/
def removeOnly (removePath : Bool) (d : Desk R) : Desk R :=
  updateFilterCount { d with disk := if removePath then ⟨[], List.nodup_nil⟩ else d.disk, configs := [], model := [] }

/-- What happens to the list. The last two are done elsewhere: by an editor or an
import, and by a reset or a restore of the settings. -/
inductive Action (R : Type)
  | search (text : List Char)
  | filter (selected : Nat)
  | proto (selected : Nat)
  | favoritesFilter
  | star (filename : String) (active : Bool)
  | sort (moved : ConfigName → Bool) (active : Bool)
  | tested (moved : ConfigName → Bool) (cancelled : Bool) (latencies : LatencyMap R)
  | load
  | remove (removePath : Bool)
  | files (disk : Disk)
  | stored (settings : Store)

def step (py : Python) (d : Desk R) : Action R → Option (Desk R)
  | .search text => some (onSearchChanged py text d)
  | .filter selected => some (selectFilter py selected d)
  | .proto selected => some (onProtoFilterChanged py selected d)
  | .favoritesFilter => some (toggleFavoritesFilter py d)
  | .star filename active => some (onFavoriteToggled py filename active d)
  | .sort moved active => some (onSortToggled py moved active d)
  | .tested moved cancelled latencies => some (onSpeedTestComplete py moved cancelled latencies d)
  | .load => some (loadOnly py d)
  | .remove removePath => some (removeOnly removePath d)
  | .files disk => some { d with disk := disk }
  | .stored settings => some { d with settings := settings }

variable {py : Python} {d t : Desk R}

theorem name_ne_empty (a : ConfigName) : a.1 ≠ "" := by
  intro h
  have hsuffix := a.2
  rw [h] at hsuffix
  exact absurd (List.suffix_nil.mp hsuffix) (by decide)

section

variable {active : Bool} {latencies : LatencyMap R}

theorem sortFunc_alphabetical {a b : String} (ha : a ≠ "") (hb : b ≠ "") :
    configItemSortFunc false latencies a b ≠ .gt ↔ a ≤ b := by
  rw [configItemSortFunc, compareConfigNames, if_neg (not_or.mpr ⟨ha, hb⟩), if_pos rfl]
  by_cases h : b < a
  · rw [if_pos h]
    exact ⟨fun hne => absurd rfl hne, fun hle => absurd h (not_lt.mpr hle)⟩
  · rw [if_neg h]
    exact ⟨fun _ => not_lt.mp h, fun _ hgt => by cases hgt⟩

theorem inOrder_iff (a b : ConfigName) :
    inOrder active latencies a b = true ↔
      match active, (latencies.lookup a.1).join, (latencies.lookup b.1).join with
      | false, _, _ => a.1 ≤ b.1
      | true, none, none => a.1 ≤ b.1
      | true, none, some _ => False
      | true, some _, none => True
      | true, some x, some y => x < y ∨ (x = y ∧ a.1 ≤ b.1) := by
  rw [inOrder, decide_eq_true_eq]
  cases active with
  | false => exact sortFunc_alphabetical (name_ne_empty a) (name_ne_empty b)
  | true =>
      rw [sortFunc_eq (name_ne_empty a) (name_ne_empty b)]
      cases (latencies.lookup a.1).join <;> cases (latencies.lookup b.1).join <;> rfl

theorem inOrder_total (a b : ConfigName) :
    inOrder active latencies a b = true ∨ inOrder active latencies b a = true := by
  rw [inOrder_iff, inOrder_iff]
  cases active with
  | false => exact le_total _ _
  | true =>
      cases (latencies.lookup a.1).join with
      | none => cases (latencies.lookup b.1).join <;> simp [le_total]
      | some x =>
          cases (latencies.lookup b.1).join with
          | none => simp
          | some y =>
              rcases lt_trichotomy x y with h | rfl | h
              · exact .inl (.inl h)
              · exact (le_total a.1 b.1).imp (fun h => .inr ⟨rfl, h⟩) fun h => .inr ⟨rfl, h⟩
              · exact .inr (.inl h)

theorem inOrder_trans (a b c : ConfigName) (hab : inOrder active latencies a b = true)
    (hbc : inOrder active latencies b c = true) : inOrder active latencies a c = true := by
  rw [inOrder_iff] at hab hbc ⊢
  cases active with
  | false => exact le_trans hab hbc
  | true =>
      generalize (latencies.lookup a.1).join = x at hab ⊢
      generalize (latencies.lookup b.1).join = y at hab hbc
      generalize (latencies.lookup c.1).join = z at hbc ⊢
      cases x with
      | none =>
          cases y with
          | none =>
              cases z with
              | none => exact le_trans hab hbc
              | some z => exact hbc
          | some y => exact hab.elim
      | some x =>
          cases z with
          | none => trivial
          | some z =>
              cases y with
              | none => exact hbc.elim
              | some y =>
                  rcases hab with hab | ⟨rfl, hab⟩
                  · rcases hbc with hbc | ⟨rfl, -⟩
                    · exact .inl (lt_trans hab hbc)
                    · exact .inl hab
                  · rcases hbc with hbc | ⟨rfl, hbc⟩
                    · exact .inl hbc
                    · exact .inr ⟨rfl, le_trans hab hbc⟩

theorem inOrder_antisymm (a b : ConfigName) (hab : inOrder active latencies a b = true)
    (hba : inOrder active latencies b a = true) : a = b := by
  rw [inOrder_iff] at hab hba
  apply Subtype.ext
  cases active with
  | false => exact le_antisymm hab hba
  | true =>
      generalize (latencies.lookup a.1).join = x at hab hba
      generalize (latencies.lookup b.1).join = y at hab hba
      cases x with
      | none =>
          cases y with
          | none => exact le_antisymm hab hba
          | some y => exact hab.elim
      | some x =>
          cases y with
          | none => exact hba.elim
          | some y =>
              rcases hab with hab | ⟨rfl, hab⟩
              · rcases hba with hba | ⟨rfl, -⟩
                · exact absurd hba (lt_asymm hab)
                · exact absurd hab (lt_irrefl _)
              · rcases hba with hba | ⟨-, hba⟩
                · exact absurd hba (lt_irrefl _)
                · exact le_antisymm hab hba

end

theorem remember_cons (disk : Disk) (cache : List (String × Finset Proto)) (name : ConfigName)
    (names : List ConfigName) :
    remember py disk cache (name :: names) =
      remember py disk (remember py disk cache [name]) names := rfl

theorem remember_one_old {disk : Disk} {cache : List (String × Finset Proto)} {asked : ConfigName} {n : String}
    {v : Finset Proto} (h : cache.lookup n = some v) : (remember py disk cache [asked]).lookup n = some v := by
  rw [remember, List.foldl_cons, List.foldl_nil]
  split
  · exact h
  · rename_i hnew
    have hne : n ≠ asked.1 := by
      rintro rfl
      exact hnew (by rw [h]; rfl)
    rw [List.lookup_cons, beq_false_of_ne hne]
    exact h

theorem remember_old {disk : Disk} {cache : List (String × Finset Proto)} (names : List ConfigName) {n : String}
    {v : Finset Proto} (h : cache.lookup n = some v) : (remember py disk cache names).lookup n = some v := by
  induction names generalizing cache with
  | nil => exact h
  | cons asked names ih =>
      rw [remember_cons]
      exact ih (remember_one_old h)

theorem remember_one_new (disk : Disk) (cache : List (String × Finset Proto)) (asked : ConfigName) :
    (remember py disk cache [asked]).lookup asked.1 =
      some ((cache.lookup asked.1).getD (protocolsOf py disk asked.1)) := by
  rw [remember, List.foldl_cons, List.foldl_nil]
  cases h : cache.lookup asked.1 with
  | some v => exact h
  | none => simp

theorem remember_one_other {disk : Disk} {cache : List (String × Finset Proto)} {asked : ConfigName} {n : String}
    (hne : n ≠ asked.1) : (remember py disk cache [asked]).lookup n = cache.lookup n := by
  rw [remember, List.foldl_cons, List.foldl_nil]
  split
  · rfl
  · rw [List.lookup_cons, beq_false_of_ne hne]

structure Stocked (py : Python) (d : Desk R) : Prop where
  items : (items d.model).Perm d.configs
  remembered : ∀ c ∈ d.configs, d.protoCache.lookup c.1 = some (protocolsOf py d.loaded c.1)
  latencies : d.latencies = d.speedSnapshot.latencyMap

/-- Nothing that the list shows is out of date, but for the favourites. -/
structure Consistent (py : Python) (d : Desk R) : Prop extends Stocked py d where
  settled : Settled (before d) (listFilterMatch py d) d.model
  count : ∀ shown ∈ d.filterCount, shown = ((visible d.model).length, d.configs.length)
  noConfigs : d.noConfigs = d.configs.isEmpty

def plainMatch (py : Python) (d : Desk R) (favorites : Finset String) (name : ConfigName) : Bool :=
  matchesServerFilter py name.1 d.searchText d.filterMode favorites d.latencies d.protoMode
    (protocolsOf py d.loaded name.1)

def plainList (py : Python) (d : Desk R) (favorites : Finset String) : List ConfigName :=
  (d.configs.mergeSort (before d)).filter (plainMatch py d favorites)

omit [LinearOrder R] in
theorem listFilterMatch_eq {c : ConfigName}
    (h : d.protoCache.lookup c.1 = some (protocolsOf py d.loaded c.1)) :
    listFilterMatch py d c = plainMatch py d d.favoritesCache c := by
  rw [listFilterMatch, protocolsFor, h]
  rfl

theorem Consistent.visible_eq (h : Consistent py d) : visible d.model = plainList py d d.favoritesCache := by
  have hplain : Settled (before d) (plainMatch py d d.favoritesCache) d.model := by
    refine h.settled.congr fun x hx => ?_
    exact (listFilterMatch_eq (h.remembered x (h.items.mem_iff.mp hx))).symm
  refine hplain.visible_eq (h.items.trans (List.mergeSort_perm _ _).symm) ?_ ?_
  · exact List.pairwise_mergeSort inOrder_trans (fun a b => by simpa using inOrder_total a b) _
  · exact fun a _ b _ => inOrder_antisymm a b

omit [LinearOrder R] in
theorem Stocked.remember (h : Stocked py d) (names : List ConfigName) {c : ConfigName} (hc : c ∈ d.configs) :
    (remember py d.disk d.protoCache names).lookup c.1 = some (protocolsOf py d.loaded c.1) :=
  remember_old names (h.remembered c hc)

theorem refreshFilter_consistent (h : Stocked py d)
    (hsorted : (ListModels.items d.model).Pairwise fun a b => before d a b = true) :
    Consistent py (refreshFilter py d) where
  items := by
    rw [refreshFilter, updateFilterCount]
    simp only [items_refilter]
    exact h.items
  remembered c hc := h.remember _ hc
  latencies := h.latencies
  settled := by
    have hfresh := settled_refilter (listFilterMatch py { d with favoritesCache := getFavorites d.settings }) hsorted
    refine hfresh.congr fun c hc => ?_
    rw [items_refilter] at hc
    have hmem := h.items.mem_iff.mp hc
    refine (listFilterMatch_eq (d := refreshFilter py d) (h.remember _ hmem)).trans ?_
    exact (listFilterMatch_eq (d := { d with favoritesCache := getFavorites d.settings })
      (h.remembered c hmem)).symm
  count shown hs := by
    cases hs
    rfl
  noConfigs := rfl

theorem stocked_refreshSorter (h : Stocked py d) (moved : ConfigName → Bool) :
    Stocked py (refreshSorter py moved d) where
  items := (items_resort_perm _ _ _ _).trans h.items
  remembered _ hc := h.remember _ hc
  latencies := h.latencies

theorem sorted_refreshSorter (d : Desk R) (moved : ConfigName → Bool) :
    (ListModels.items (refreshSorter py moved d).model).Pairwise fun a b =>
      before (refreshSorter py moved d) a b = true :=
  sorted_resort inOrder_total inOrder_trans _ _ _

theorem Consistent.sorted (h : Consistent py d) :
    (ListModels.items d.model).Pairwise fun a b => before d a b = true := h.settled.sorted

theorem onSortToggled_consistent (h : Consistent py d) (moved : ConfigName → Bool) (active : Bool) :
    Consistent py (onSortToggled py moved active d) := by
  have hstocked : Stocked py (onSortToggled py moved active d) :=
    stocked_refreshSorter (d := { d with sortBySpeedActive := active }) ⟨h.items, h.remembered, h.latencies⟩ moved
  have hresort : Settled (before { d with sortBySpeedActive := active }) (listFilterMatch py d)
      (onSortToggled py moved active d).model := h.settled.resort inOrder_total inOrder_trans
  have hperm : (ListModels.items (onSortToggled py moved active d).model).Perm (ListModels.items d.model) :=
    items_resort_perm _ _ _ _
  refine ⟨hstocked, hresort.congr fun c hc => ?_, fun shown hs => ?_, h.noConfigs⟩
  · have hmem := h.items.mem_iff.mp (hperm.mem_iff.mp hc)
    exact (listFilterMatch_eq (hstocked.remembered c hmem)).trans (listFilterMatch_eq (h.remembered c hmem)).symm
  · rw [h.count shown hs, h.settled.visible_filter, hresort.visible_filter, (hperm.filter _).length_eq]
    rfl

theorem onSpeedTestComplete_consistent (h : Consistent py d) (moved : ConfigName → Bool) (cancelled : Bool)
    (latencies : LatencyMap R) : Consistent py (onSpeedTestComplete py moved cancelled latencies d) := by
  rw [onSpeedTestComplete]
  by_cases hcancelled : cancelled = true
  · rw [if_pos hcancelled]
    exact h
  · rw [if_neg hcancelled]
    have hstocked : Stocked py (replaceSpeeds latencies d) := ⟨h.items, h.remembered, rfl⟩
    by_cases hactive : (replaceSpeeds latencies d).sortBySpeedActive = true
    · simp only [if_pos hactive]
      exact refreshFilter_consistent (stocked_refreshSorter hstocked moved) (sorted_refreshSorter _ _)
    · simp only [if_neg hactive]
      refine refreshFilter_consistent hstocked (h.sorted.imp fun {a b} hab => ?_)
      -- In alphabetical order the latencies make no difference.
      have halphabetical : d.sortBySpeedActive = false := Bool.eq_false_iff.mpr hactive
      rw [before, halphabetical, inOrder_iff] at hab
      rw [before, show (replaceSpeeds latencies d).sortBySpeedActive = false from halphabetical, inOrder_iff]
      exact hab

structure Loading (py : Python) (d : Desk R) (model : List (Entry ConfigName)) (cache : List (String × Finset Proto))
    (done : List ConfigName) : Prop where
  settled : Settled (before d) (plainMatch py d d.favoritesCache) model
  items : (ListModels.items model).Perm done
  cached : ∀ n v, cache.lookup n = some v → v = protocolsOf py d.disk n
  remembered : ∀ c ∈ done, cache.lookup c.1 = some (protocolsOf py d.disk c.1)

theorem Loading.append {model : List (Entry ConfigName)} {cache : List (String × Finset Proto)}
    {done : List ConfigName} (hd : d.loaded = d.disk) (h : Loading py d model cache done) (name : ConfigName) :
    ∃ model' cache', appendItem py { d with model := model, protoCache := cache } name =
      { d with model := model', protoCache := cache' } ∧ Loading py d model' cache' (done ++ [name]) := by
  have hmatch : listFilterMatch py { d with model := model, protoCache := cache } =
      plainMatch py d d.favoritesCache := by
    funext c
    have hprotocols : protocolsFor py { d with model := model, protoCache := cache } c.1 =
        protocolsOf py d.loaded c.1 := by
      rw [protocolsFor, hd]
      cases hc : cache.lookup c.1 with
      | none => rfl
      | some v => exact h.cached _ _ hc
    rw [listFilterMatch, hprotocols]
    rfl
  have hname : (remember py d.disk cache [name]).lookup name.1 = some (protocolsOf py d.disk name.1) := by
    rw [remember_one_new]
    cases hc : cache.lookup name.1 with
    | none => rfl
    | some v =>
        rw [h.cached _ _ hc]
        rfl
  refine ⟨ListModels.append (before d) (plainMatch py d d.favoritesCache) name model,
    remember py d.disk cache [name], ?_, ?_⟩
  · rw [appendItem, hmatch]
    rfl
  · refine ⟨h.settled.append inOrder_total inOrder_trans name, ?_, ?_, ?_⟩
    · refine (items_append_perm _ _ _ _).trans (List.Perm.trans (h.items.cons name) ?_)
      exact (List.perm_append_singleton name done).symm
    · intro n v hv
      by_cases hn : n = name.1
      · rw [hn, hname] at hv
        rw [hn]
        exact (Option.some.inj hv).symm
      · rw [remember_one_other hn] at hv
        exact h.cached n v hv
    · intro c hc
      rcases List.mem_append.mp hc with hold | hnew
      · exact remember_old _ (h.remembered c hold)
      · rw [List.mem_singleton.mp hnew]
        exact hname

theorem Loading.all {model : List (Entry ConfigName)} {cache : List (String × Finset Proto)}
    {done : List ConfigName} (hd : d.loaded = d.disk) (names : List ConfigName)
    (h : Loading py d model cache done) :
    ∃ model' cache', names.foldl (appendItem py) { d with model := model, protoCache := cache } =
      { d with model := model', protoCache := cache' } ∧ Loading py d model' cache' (done ++ names) := by
  induction names generalizing model cache done with
  | nil =>
      rw [List.append_nil]
      exact ⟨model, cache, rfl, h⟩
  | cons name names ih =>
      obtain ⟨model', cache', heq, hnext⟩ := h.append hd name
      rw [List.foldl_cons, heq, List.append_cons]
      exact ih hnext

theorem loadOnly_eq (py : Python) (d : Desk R) :
    ∃ model cache, loadOnly py d = updateFilterCount { d with
        loaded := d.disk, configs := listConfigs d.disk, model := model, protoCache := cache } ∧
      Loading py { d with loaded := d.disk, configs := listConfigs d.disk } model cache (listConfigs d.disk) := by
  have hnone : Loading py { d with loaded := d.disk, configs := listConfigs d.disk } [] [] [] :=
    ⟨settled_nil _ _, List.Perm.refl _, (fun _ _ h => by cases h), (fun _ h => by cases h)⟩
  obtain ⟨model, cache, heq, hall⟩ := hnone.all rfl (listConfigs d.disk)
  exact ⟨model, cache, congrArg updateFilterCount heq, hall⟩

theorem loadOnly_consistent (d : Desk R) (hlatencies : d.latencies = d.speedSnapshot.latencyMap) :
    Consistent py (loadOnly py d) := by
  obtain ⟨model, cache, hload, hall⟩ := loadOnly_eq py d
  rw [hload]
  refine ⟨⟨hall.items, hall.remembered, hlatencies⟩, ?_, fun shown hs => ?_, rfl⟩
  · refine hall.settled.congr fun c hc => ?_
    exact listFilterMatch_eq (hall.remembered c (hall.items.mem_iff.mp hc))
  · cases hs
    rfl

theorem removeOnly_consistent (removePath : Bool) (h : Consistent py d) : Consistent py (removeOnly removePath d) where
  items := List.Perm.refl _
  remembered _ hc := by cases hc
  latencies := h.latencies
  settled := settled_nil _ _
  count shown hs := by
    cases hs
    rfl
  noConfigs := rfl

theorem selectFilter_consistent (h : Consistent py d) (selected : Nat) :
    Consistent py (selectFilter py selected d) := by
  rw [selectFilter]
  split
  · exact h
  · exact refreshFilter_consistent ⟨h.items, h.remembered, h.latencies⟩ h.sorted

theorem toggleFavoritesFilter_consistent (h : Consistent py d) : Consistent py (toggleFavoritesFilter py d) := by
  simp only [toggleFavoritesFilter, selectFilter]
  generalize hmode : (if d.filterMode = .favorites then FilterMode.all else .favorites) = mode
  split
  · exact refreshFilter_consistent ⟨h.items, h.remembered, h.latencies⟩ h.sorted
  · have honce : Consistent py (onFilterChanged py (filterModes.idxOf mode)
        { d with filterMode := mode, filterDropdown := filterModes.idxOf mode }) :=
      refreshFilter_consistent ⟨h.items, h.remembered, h.latencies⟩ h.sorted
    exact refreshFilter_consistent honce.toStocked honce.sorted

theorem files_consistent (h : Consistent py d) (disk : Disk) : Consistent py { d with disk := disk } := by
  refine ⟨⟨h.items, h.remembered, h.latencies⟩, h.settled.congr fun c hc => ?_, h.count, h.noConfigs⟩
  have hc := h.remembered c (h.items.mem_iff.mp hc)
  exact (listFilterMatch_eq (d := { d with disk := disk }) hc).trans (listFilterMatch_eq hc).symm

theorem consistent_step {a : Action R} (h : Consistent py d) (hstep : step py d a = some t) : Consistent py t := by
  cases a with
  | search text =>
      cases hstep
      exact refreshFilter_consistent ⟨h.items, h.remembered, h.latencies⟩ h.sorted
  | filter selected =>
      cases hstep
      exact selectFilter_consistent h selected
  | proto selected =>
      cases hstep
      exact refreshFilter_consistent ⟨h.items, h.remembered, h.latencies⟩ h.sorted
  | favoritesFilter =>
      cases hstep
      exact toggleFavoritesFilter_consistent h
  | star filename active =>
      cases hstep
      exact refreshFilter_consistent ⟨h.items, h.remembered, h.latencies⟩ h.sorted
  | sort moved active =>
      cases hstep
      exact onSortToggled_consistent h moved active
  | tested moved cancelled latencies =>
      cases hstep
      exact onSpeedTestComplete_consistent h moved cancelled latencies
  | load =>
      cases hstep
      exact loadOnly_consistent d h.latencies
  | remove removePath =>
      cases hstep
      exact removeOnly_consistent removePath h
  | files disk =>
      cases hstep
      exact files_consistent h disk
  | stored settings =>
      cases hstep
      exact ⟨⟨h.items, h.remembered, h.latencies⟩, h.settled, h.count, h.noConfigs⟩

def unloaded (settings : Store) (disk : Disk) : Desk R where
  settings := settings
  disk := disk
  loaded := disk
  configs := []
  model := []
  protoCache := []
  searchText := []
  filterMode := .all
  protoMode := .all
  favoritesCache := ∅
  speedSnapshot := ⟨0, []⟩
  latencies := []
  sortBySpeedActive := false
  filterDropdown := 0
  filterCount := none
  noConfigs := true

/-- The window as it opens: the label of the counter is made after the list was loaded. -/
def opened (py : Python) (settings : Store) (disk : Disk) : Desk R :=
  { loadOnly py (unloaded settings disk) with filterCount := none }

theorem opened_consistent (py : Python) (settings : Store) (disk : Disk) :
    Consistent py (opened py settings disk : Desk R) := by
  have h : Consistent py (loadOnly py (unloaded settings disk : Desk R)) := loadOnly_consistent _ rfl
  exact ⟨⟨h.items, h.remembered, h.latencies⟩, h.settled, (fun shown hs => by cases hs), h.noConfigs⟩

theorem getFavorites_toggle (py : Python) (filename : String) (favorite : Bool) (settings : Store) :
    getFavorites (toggleFavorite py filename favorite settings) =
      if favorite then insert filename (getFavorites settings) else (getFavorites settings).erase filename := by
  rw [toggleFavorite]
  generalize (if favorite then insert filename (getFavorites settings)
    else (getFavorites settings).erase filename) = favs
  have hstored : setSetting py.repr settings .favorites (.list (favs.sort.map .str)) =
      .ok (setValue settings .favorites (.strv favs.sort)) := by
    have hmap : (favs.sort.map Value.str).map (strOf py.repr) = favs.sort := by
      rw [List.map_map]
      exact List.map_id _
    simp only [setSetting, toVariant, hmap]
    rfl
  have hread : getSetting (setValue settings .favorites (.strv favs.sort)) .favorites = .list (favs.sort.map .str) := by
    simp only [getSetting, getValue_setValue (show (Variant.strv favs.sort).type = Key.favorites.default.type from rfl)]
  simp only [hstored, getFavorites, hread, List.map_map]
  rw [show ((fun x => match x with | Value.str s => s | _ => "") ∘ Value.str) = id from rfl, List.map_id]
  exact Finset.sort_toFinset favs _

/-- The filter for favourites goes by those that are stored. -/
def Current (d : Desk R) : Prop := d.filterMode = .favorites → d.favoritesCache = getFavorites d.settings

/-- The favourites are not replaced from elsewhere while the list is filtered by them. -/
def Undisturbed (d : Desk R) : Action R → Prop
  | .stored settings => d.filterMode = .favorites → getFavorites settings = getFavorites d.settings
  | _ => True

omit [LinearOrder R] in
theorem current_refreshFilter (d : Desk R) : Current (refreshFilter py d) := fun _ => rfl

theorem current_loadOnly (h : Current d) : Current (loadOnly py d) := by
  obtain ⟨model, cache, hload, -⟩ := loadOnly_eq py d
  rw [hload]
  exact h

theorem current_opened (py : Python) (settings : Store) (disk : Disk) :
    Current (opened py settings disk : Desk R) := by
  obtain ⟨model, cache, hload, -⟩ := loadOnly_eq py (unloaded settings disk : Desk R)
  intro hmode
  rw [opened, hload] at hmode
  cases hmode

theorem current_step {a : Action R} (h : Current d) (hstep : step py d a = some t) :
    Current t ↔ Undisturbed d a := by
  cases a with
  | search | proto | favoritesFilter | star =>
      cases hstep
      exact ⟨fun _ => trivial, fun _ => current_refreshFilter _⟩
  | filter selected =>
      cases hstep
      refine ⟨fun _ => trivial, fun _ => ?_⟩
      rw [selectFilter]
      split
      · exact h
      · exact current_refreshFilter _
  | sort | files =>
      cases hstep
      exact ⟨fun _ => trivial, fun _ => h⟩
  | tested moved cancelled latencies =>
      cases hstep
      refine ⟨fun _ => trivial, fun _ => ?_⟩
      rw [onSpeedTestComplete]
      split
      · exact h
      · exact current_refreshFilter _
  | load =>
      cases hstep
      exact ⟨fun _ => trivial, fun _ => current_loadOnly h⟩
  | remove removePath =>
      cases hstep
      exact ⟨fun _ => trivial, fun _ => h⟩
  | stored settings =>
      cases hstep
      constructor
      · exact fun ht hmode => (ht hmode).symm.trans (h hmode)
      · exact fun hsame hmode => (h hmode).trans (hsame hmode).symm

/-- In every state of every run the list shows all items of the loaded directory, sorted
and filtered as they would be anew, and the counter and the empty message say so; and
the favourites that it goes by are those that are stored in every state of exactly the
runs in which they are not replaced from elsewhere under the filter. -/
theorem list_is_plain (py : Python) (settings : Store) (disk : Disk) (actions : List (Action R)) :
    AllStates (step py) (fun d => visible d.model = plainList py d d.favoritesCache ∧
        (∀ shown ∈ d.filterCount, shown = ((plainList py d d.favoritesCache).length, d.configs.length)) ∧
        d.noConfigs = d.configs.isEmpty) (opened py settings disk) actions ∧
      (AllStates (step py) Current (opened py settings disk) actions ↔
        AllSteps (step py) Undisturbed (opened py settings disk) actions) := by
  constructor
  · have hall : AllStates (step py) (Consistent py) (opened py settings disk) actions :=
      allStates_of_invariant (fun _ _ _ h hs => consistent_step h hs) (opened_consistent py settings disk) actions
    refine hall.mono fun d hd => ⟨hd.visible_eq, fun shown hs => ?_, hd.noConfigs⟩
    rw [hd.count shown hs, hd.visible_eq]
  · exact allStates_iff_allSteps (I := Current) (fun _ h => h)
      (fun _ _ _ h hs hg => (current_step h hs).mpr hg) (fun _ _ _ h hs ht => (current_step h hs).mp ht) actions
      (current_opened py settings disk)

end EovpnPro.ServerList
