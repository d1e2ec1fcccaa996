import Mathlib.Data.String.Basic
import EovpnPro.AutoConnect

namespace EovpnPro.SpeedOrder

open AutoConnect

variable {R : Type} [LinearOrder R]

/-- `_compare_config_names` -/
def compareConfigNames (sortBySpeedActive : Bool) (latencies : LatencyMap R) (file1 file2 : String) : Int :=
  if file1 = "" ∨ file2 = "" then 0
  else if sortBySpeedActive = false then if file2 < file1 then 1 else -1
  else
    match (latencies.lookup file1).join, (latencies.lookup file2).join with
    | none, none => if file2 < file1 then 1 else -1
    | none, some _ => 1
    | some _, none => -1
    | some rtt1, some rtt2 =>
        if rtt1 < rtt2 then -1 else if rtt2 < rtt1 then 1 else if file2 < file1 then 1 else -1

def configItemSortFunc (sortBySpeedActive : Bool) (latencies : LatencyMap R) (file1 file2 : String) :
    Ordering :=
  let result := compareConfigNames sortBySpeedActive latencies file1 file2
  if result < 0 then .lt else if 0 < result then .gt else .eq

/-- The window may show the names in this order while it sorts by speed. -/
def Shown (latencies : LatencyMap R) (names : List String) : Prop :=
  names.Pairwise fun a b => configItemSortFunc true latencies a b ≠ .gt

instance (latencies : LatencyMap R) (names : List String) : Decidable (Shown latencies names) :=
  inferInstanceAs (Decidable (names.Pairwise _))

def tried (latencies : LatencyMap R) (name : String) : Bool :=
  !(latencies.any (fun entry => entry.2.isSome) && latencies.lookup name == some none)

variable {latencies : LatencyMap R}

theorem sortFunc_eq {a b : String} (ha : a ≠ "") (hb : b ≠ "") :
    configItemSortFunc true latencies a b ≠ .gt ↔
      match (latencies.lookup a).join, (latencies.lookup b).join with
      | none, none => a ≤ b
      | none, some _ => False
      | some _, none => True
      | some x, some y => x < y ∨ (x = y ∧ a ≤ b) := by
  have hname : (if b < a then (1 : Int) else -1) ≤ 0 ↔ a ≤ b := by
    split
    · rename_i h
      exact ⟨fun h1 => absurd h1 (by decide), fun h1 => absurd h (not_lt.mpr h1)⟩
    · rename_i h
      exact ⟨fun _ => not_lt.mp h, fun _ => by decide⟩
  have hle : ∀ result : Int, (if result < 0 then Ordering.lt else if 0 < result then .gt else .eq) ≠ .gt ↔
      result ≤ 0 := by
    intro result
    split
    · simp; omega
    · split <;> simp <;> omega
  rw [configItemSortFunc, hle, compareConfigNames, if_neg (not_or.mpr ⟨ha, hb⟩)]
  simp only [Bool.true_eq_false, if_false]
  cases (latencies.lookup a).join with
  | none =>
      cases (latencies.lookup b).join with
      | none => exact hname
      | some y => exact ⟨fun h => absurd h (show ¬(1 : Int) ≤ 0 by decide), False.elim⟩
  | some x =>
      cases (latencies.lookup b).join with
      | none => exact ⟨fun _ => trivial, fun _ => show (-1 : Int) ≤ 0 by decide⟩
      | some y =>
          rcases lt_trichotomy x y with h | h | h
          · simp [h]
          · subst h; simpa using hname
          · simp [h, not_lt.mpr h.le, h.ne']

/-- Two orders that the window may show are the same. -/
theorem sortFunc_antisymm {a b : String} (ha : a ≠ "") (hb : b ≠ "")
    (hab : configItemSortFunc true latencies a b ≠ .gt)
    (hba : configItemSortFunc true latencies b a ≠ .gt) : a = b := by
  rw [sortFunc_eq ha hb] at hab
  rw [sortFunc_eq hb ha] at hba
  cases hx : (latencies.lookup a).join with
  | none =>
      cases hy : (latencies.lookup b).join with
      | none => simp only [hx, hy] at hab hba; exact le_antisymm hab hba
      | some y => simp only [hx, hy] at hab
  | some x =>
      cases hy : (latencies.lookup b).join with
      | none => simp only [hx, hy] at hba
      | some y =>
          simp only [hx, hy] at hab hba
          rcases hab with hlt | ⟨rfl, hab⟩
          · rcases hba with hgt | ⟨rfl, -⟩
            · exact absurd hgt hlt.asymm
            · exact absurd hlt (lt_irrefl _)
          · rcases hba with hgt | ⟨-, hba⟩
            · exact absurd hgt (lt_irrefl _)
            · exact le_antisymm hab hba

theorem latencyLe_total (p q : String × Nat) :
    latencyLe latencies p q = true ∨ latencyLe latencies q p = true := by
  simp only [latencyLe]
  cases (latencies.lookup p.1).join with
  | none =>
      cases (latencies.lookup q.1).join with
      | none => simpa only [decide_eq_true_eq] using Nat.le_total p.2 q.2
      | some y => exact .inr rfl
  | some x =>
      cases (latencies.lookup q.1).join with
      | none => exact .inl rfl
      | some y =>
          simp only [decide_eq_true_eq]
          rcases lt_trichotomy x y with h | rfl | h
          · exact .inl (.inl h)
          · exact (Nat.le_total p.2 q.2).imp (fun h => .inr ⟨rfl, h⟩) fun h => .inr ⟨rfl, h⟩
          · exact .inr (.inl h)

theorem latencyLe_trans {p q r : String × Nat} (hpq : latencyLe latencies p q = true)
    (hqr : latencyLe latencies q r = true) : latencyLe latencies p r = true := by
  simp only [latencyLe] at hpq hqr ⊢
  cases hx : (latencies.lookup p.1).join with
  | none =>
      cases hy : (latencies.lookup q.1).join with
      | some y => simp [hx, hy] at hpq
      | none =>
          cases hz : (latencies.lookup r.1).join with
          | some z => simp [hy, hz] at hqr
          | none =>
              simp only [hx, hy, hz, decide_eq_true_eq] at hpq hqr ⊢
              exact hpq.trans hqr
  | some x =>
      cases hz : (latencies.lookup r.1).join with
      | none => rfl
      | some z =>
          cases hy : (latencies.lookup q.1).join with
          | none => simp [hy, hz] at hqr
          | some y =>
              simp only [hx, hy, hz, decide_eq_true_eq] at hpq hqr ⊢
              rcases hpq with hxy | ⟨rfl, hxy⟩
              · rcases hqr with hyz | ⟨rfl, -⟩
                · exact .inl (hxy.trans hyz)
                · exact .inl hxy
              · exact hqr.imp_right fun h => ⟨h.1, hxy.trans h.2⟩

theorem latencyLe_of_unmeasured (h : latencies.any (fun entry => entry.2.isSome) = false)
    (p q : String × Nat) : latencyLe latencies p q = decide (p.2 ≤ q.2) := by
  have hnone : ∀ name, (latencies.lookup name).join = none := by
    intro name
    cases hl : latencies.lookup name with
    | none => rfl
    | some value =>
        obtain ⟨before, after, rfl, -⟩ := List.lookup_eq_some_iff.mp hl
        simpa using List.any_eq_false.mp h (name, value) (by simp)
  rw [latencyLe, hnone, hnone]

def ordered (files : List String) (latencies : LatencyMap R) : List (String × Nat) :=
  let hasAnyRtt := latencies.any fun entry => entry.2.isSome
  orderByLatency latencies hasAnyRtt (eligibleFiles files latencies hasAnyRtt)

theorem eligible_names (files : List String) :
    (eligibleFiles files latencies (latencies.any fun entry => entry.2.isSome)).map Prod.fst =
      files.filter (tried latencies) := by
  have hfilter := List.filter_map (f := Prod.fst) (p := tried latencies) (l := files.zipIdx)
  rw [List.zipIdx_map_fst] at hfilter
  exact hfilter.symm

theorem ordered_perm (files : List String) (latencies : LatencyMap R) :
    ((ordered files latencies).map Prod.fst).Perm (files.filter (tried latencies)) := by
  rw [← eligible_names]
  apply List.Perm.map _
  rw [ordered, orderByLatency]
  split
  · exact List.perm_insertionSort _ _
  · exact List.Perm.refl _

theorem ordered_sorted (files : List String) :
    (ordered files latencies).Pairwise fun p q => latencyLe latencies p q = true := by
  obtain h | h := Bool.eq_false_or_eq_true (latencies.any fun entry => entry.2.isSome)
  · have : Std.Total fun p q => latencyLe latencies p q = true := ⟨latencyLe_total⟩
    have : IsTrans (String × Nat) fun p q => latencyLe latencies p q = true :=
      ⟨fun _ _ _ => latencyLe_trans⟩
    simp only [ordered, orderByLatency, h, if_true]
    exact List.pairwise_insertionSort _ _
  · have hpositions : files.zipIdx.Pairwise fun p q => p.2 < q.2 := by
      rw [← List.pairwise_map, List.zipIdx_map_snd]
      exact List.pairwise_lt_range'
    simp only [ordered, orderByLatency, h, Bool.false_eq_true, if_false]
    refine List.Pairwise.filter _ (hpositions.imp fun {p q} hlt => ?_)
    rw [latencyLe_of_unmeasured h, decide_eq_true hlt.le]

theorem position_le {files : List String} (hfiles : files.Pairwise (· < ·)) {p q : String × Nat}
    (hp : p ∈ files.zipIdx) (hq : q ∈ files.zipIdx) (h : p.2 ≤ q.2) : p.1 ≤ q.1 := by
  rw [List.mem_zipIdx_iff_getElem?] at hp hq
  obtain ⟨hpl, hp⟩ := List.getElem?_eq_some_iff.mp hp
  obtain ⟨hql, hq⟩ := List.getElem?_eq_some_iff.mp hq
  rcases h.eq_or_lt with heq | hlt
  · simp only [heq, hq] at hp
    exact hp.symm.le
  · rw [← hp, ← hq]
    exact (List.pairwise_iff_getElem.mp hfiles p.2 q.2 hpl hql hlt).le

theorem latencyLe_shown {files : List String} (hfiles : files.Pairwise (· < ·)) (hempty : "" ∉ files)
    {p q : String × Nat} (hp : p ∈ files.zipIdx) (hq : q ∈ files.zipIdx)
    (h : latencyLe latencies p q = true) : configItemSortFunc true latencies p.1 q.1 ≠ .gt := by
  have hpne : p.1 ≠ "" := fun he => hempty (he ▸ List.fst_mem_of_mem_zipIdx hp)
  have hqne : q.1 ≠ "" := fun he => hempty (he ▸ List.fst_mem_of_mem_zipIdx hq)
  rw [sortFunc_eq hpne hqne]
  rw [latencyLe] at h
  cases hx : (latencies.lookup p.1).join with
  | none =>
      cases hy : (latencies.lookup q.1).join with
      | none =>
          simp only [hx, hy, decide_eq_true_eq] at h
          exact position_le hfiles hp hq h
      | some y => simp [hx, hy] at h
  | some x =>
      cases hy : (latencies.lookup q.1).join with
      | none => trivial
      | some y =>
          simp only [hx, hy, decide_eq_true_eq] at h
          exact h.imp_right fun hpos => ⟨hpos.1, position_le hfiles hp hq hpos.2⟩

theorem ordered_shown {files : List String} (hfiles : files.Pairwise (· < ·)) (hempty : "" ∉ files) :
    Shown latencies ((ordered files latencies).map Prod.fst) := by
  have hmem : ∀ p ∈ ordered files latencies, p ∈ files.zipIdx := by
    intro p hp
    exact List.mem_of_mem_filter (mem_orderByLatency.mp hp)
  rw [Shown, List.pairwise_map]
  exact (ordered_sorted files).imp_of_mem fun hp hq h =>
    latencyLe_shown hfiles hempty (hmem _ hp) (hmem _ hq) h

theorem ordered_eq {files shown : List String} (hfiles : files.Pairwise (· < ·)) (hempty : "" ∉ files)
    (hperm : shown.Perm files) (hshown : Shown latencies shown) :
    (ordered files latencies).map Prod.fst = shown.filter (tried latencies) := by
  have hsame := (ordered_perm files latencies).trans (hperm.filter (tried latencies)).symm
  refine hsame.eq_of_pairwise ?_ (ordered_shown hfiles hempty) (hshown.filter _)
  intro a b ha hb hab hba
  have hmem : ∀ name ∈ shown.filter (tried latencies), name ≠ "" := fun name h he =>
    hempty (he ▸ hperm.mem_iff.mp (List.mem_of_mem_filter h))
  exact sortFunc_antisymm (hmem a (hsame.mem_iff.mp ha)) (hmem b hb) hab hba

theorem queue_eq {files shown : List String} (hfiles : files.Pairwise (· < ·)) (hempty : "" ∉ files)
    (hperm : shown.Perm files) (hshown : Shown latencies shown) (limit : Int) :
    buildCascadeQueue files latencies true limit =
      (if shown.filter (tried latencies) = [] then files else shown.filter (tried latencies)).take
        (max 1 limit.toNat) := by
  have hall : files.filter (fun name => name ≠ "") = files :=
    List.filter_eq_self.mpr fun name h => decide_eq_true fun he => hempty (he ▸ h)
  have hnames := ordered_eq hfiles hempty hperm hshown
  simp only [ordered] at hnames
  simp only [buildCascadeQueue, hall, Bool.true_and, List.map_take, hnames]
  have hpos : max 1 limit.toNat ≠ 0 := by omega
  by_cases hnil : files = []
  · subst files
    rw [hperm.eq_nil]
    simp
  · rw [if_neg hnil]
    simp only [List.take_eq_nil_iff, hpos, false_or]
    split <;> rfl

theorem Shown.take_fastest {names : List String} (hnames : Shown latencies names) (hempty : "" ∉ names)
    (n : Nat) {a b : String} (ha : a ∈ names.take n) (hb : b ∈ names) (hout : b ∉ names.take n) {x y : R}
    (hx : latencies.lookup a = some (some x)) (hy : latencies.lookup b = some (some y)) : x ≤ y := by
  rw [← List.take_append_drop n names] at hb hnames
  have hbdrop := (List.mem_append.mp hb).resolve_left hout
  have hab := (List.pairwise_append.mp hnames).2.2 a ha b hbdrop
  have hane : a ≠ "" := fun he => hempty (he ▸ List.mem_of_mem_take ha)
  have hbne : b ≠ "" := fun he => hempty (he ▸ List.mem_of_mem_drop hbdrop)
  rw [sortFunc_eq hane hbne, hx, hy] at hab
  rcases hab with hlt | ⟨heq, -⟩
  · exact hlt.le
  · exact heq.le

/-- The queue follows the order that the window shows while it sorts by speed. -/
theorem queue_follows_window {files shown : List String} (hfiles : files.Pairwise (· < ·))
    (hempty : "" ∉ files) (latencies : LatencyMap R) (hperm : shown.Perm files)
    (hshown : Shown latencies shown) (limit : Int) :
    buildCascadeQueue files latencies true limit =
        (if shown.filter (tried latencies) = [] then files else shown.filter (tried latencies)).take
          (max 1 limit.toNat) ∧
      (files ≠ [] → buildCascadeQueue files latencies true limit ≠ []) ∧
      ∀ a ∈ buildCascadeQueue files latencies true limit, ∀ b ∈ files,
        b ∉ buildCascadeQueue files latencies true limit → ∀ x y, latencies.lookup a = some (some x) →
          latencies.lookup b = some (some y) → x ≤ y := by
  rw [queue_eq hfiles hempty hperm hshown limit]
  refine ⟨rfl, fun hne hnil => ?_, fun a ha b hb hout x y hx hy => ?_⟩
  · rw [List.take_eq_nil_iff] at hnil
    rcases hnil with hzero | hnil
    · omega
    · split at hnil
      · exact hne hnil
      · rename_i hkept
        exact hkept hnil
  · have hkept : b ∈ shown.filter (tried latencies) :=
      List.mem_filter.mpr ⟨hperm.mem_iff.mpr hb, by simp [tried, hy]⟩
    rw [if_neg (List.ne_nil_of_mem hkept)] at ha hout
    have hnames : "" ∉ shown.filter (tried latencies) := fun h =>
      hempty (hperm.mem_iff.mp (List.mem_of_mem_filter h))
    exact Shown.take_fastest (List.Pairwise.filter _ hshown) hnames _ ha hkept hout hx hy

theorem queue_follows_window_mixed :
    buildCascadeQueue ["a.ovpn", "b.ovpn", "c.ovpn", "d.ovpn"]
        [("a.ovpn", some (52 : Int)), ("c.ovpn", some 31), ("d.ovpn", none), ("x.ovpn", some 5)] true 2 =
      ["c.ovpn", "a.ovpn"] := by
  have hperm : ["c.ovpn", "a.ovpn", "b.ovpn", "d.ovpn"].Perm
    ["a.ovpn", "b.ovpn", "c.ovpn", "d.ovpn"] := by decide
  have h := queue_follows_window (by decide) (by decide)
    [("a.ovpn", some (52 : Int)), ("c.ovpn", some 31), ("d.ovpn", none), ("x.ovpn", some 5)]
    hperm (by decide) 2
  exact h.1

end EovpnPro.SpeedOrder
