import Mathlib.Data.List.Basic
import Mathlib.Data.List.Perm.Subperm

namespace EovpnPro.Resolution

variable {N : Type}

/-- A component of a path: the parent directory, or a name. -/
inductive Comp (N : Type)
  | up
  | name (n : N)

inductive Kind (N : Type)
  | plain
  | link (absolute : Bool) (target : List (Comp N))

def Kind.isLink : Kind N → Bool
  | .plain => false
  | .link _ _ => true

section

variable (look : List N → Option (Kind N))

/-- Take one component, with the targets of links left to `follow`. -/
def enter (follow : List N → List (Comp N) → Option (List N)) (place : List N) : Comp N → Option (List N)
  | .up => some place.dropLast
  | .name n =>
      match look (place ++ [n]) with
      | none => none
      | some .plain => some (place ++ [n])
      | some (.link absolute target) => follow (if absolute then [] else place) target

def walk : Nat → List N → List (Comp N) → Option (List N)
  | 0, place, path => path.foldlM (enter look fun _ _ => none) place
  | depth + 1, place, path => path.foldlM (enter look (walk depth)) place

/-- The place that a path leads to. -/
def Leads (place : List N) (path : List (Comp N)) (q : List N) : Prop :=
  ∃ depth, walk look depth place path = some q

/-- No link lies on the way to a place. -/
def Canonical (place : List N) : Prop :=
  ∀ p n, p ++ [n] <+: place → look (p ++ [n]) = some .plain

end

variable {look : List N → Option (Kind N)}

variable (look) in
theorem walk_eq_foldlM (depth : Nat) :
    ∃ follow, (∀ place path q, follow place path = some q → ∃ d < depth, walk look d place path = some q) ∧
      ∀ place path, walk look depth place path = path.foldlM (enter look follow) place := by
  cases depth with
  | zero =>
      refine ⟨fun _ _ => none, ?_, fun _ _ => rfl⟩
      intro place path q h
      cases h
  | succ depth =>
      refine ⟨walk look depth, ?_, fun _ _ => rfl⟩
      exact fun place path q h => ⟨depth, Nat.lt_succ_self _, h⟩

@[simp] theorem walk_nil (depth : Nat) (place : List N) : walk look depth place [] = some place := by
  cases depth <;> rfl

theorem walk_append (depth : Nat) (place : List N) (xs ys : List (Comp N)) :
    walk look depth place (xs ++ ys) =
      (walk look depth place xs).bind fun mid => walk look depth mid ys := by
  obtain ⟨follow, -, hwalk⟩ := walk_eq_foldlM look depth
  simp only [hwalk, List.foldlM_append]
  rfl

theorem walk_up (depth : Nat) (place : List N) (path : List (Comp N)) :
    walk look depth place (.up :: path) = walk look depth place.dropLast path := by
  cases depth <;> rfl

theorem walk_plain {place : List N} {n : N} (h : look (place ++ [n]) = some .plain) (depth : Nat)
    (path : List (Comp N)) : walk look depth place (.name n :: path) = walk look depth (place ++ [n]) path := by
  cases depth <;> simp [walk, enter, h]

theorem walk_link {place : List N} {n : N} {absolute : Bool} {target : List (Comp N)}
    (h : look (place ++ [n]) = some (.link absolute target)) (depth : Nat) (path : List (Comp N)) :
    walk look (depth + 1) place (.name n :: path) =
      (walk look depth (if absolute then [] else place) target).bind fun q => walk look (depth + 1) q path := by
  simp [walk, enter, h]

theorem enter_mono {follow follow' : List N → List (Comp N) → Option (List N)}
    (hfollow : ∀ place path q, follow place path = some q → follow' place path = some q)
    {place q : List N} {c : Comp N} (h : enter look follow place c = some q) :
    enter look follow' place c = some q := by
  cases c with
  | up => exact h
  | name n =>
      rw [enter] at h ⊢
      split at h
      · cases h
      · exact h
      · exact hfollow _ _ _ h

theorem foldlM_enter_mono {follow follow' : List N → List (Comp N) → Option (List N)}
    (hfollow : ∀ place path q, follow place path = some q → follow' place path = some q)
    {path : List (Comp N)} {place q : List N} (h : path.foldlM (enter look follow) place = some q) :
    path.foldlM (enter look follow') place = some q := by
  induction path generalizing place with
  | nil => exact h
  | cons c path ih =>
      rw [List.foldlM_cons] at h ⊢
      obtain ⟨mid, hmid, hrest⟩ := Option.bind_eq_some_iff.mp h
      exact Option.bind_eq_some_iff.mpr ⟨mid, enter_mono hfollow hmid, ih hrest⟩

theorem walk_succ {depth : Nat} {place q : List N} {path : List (Comp N)}
    (h : walk look depth place path = some q) : walk look (depth + 1) place path = some q := by
  induction depth generalizing place path q with
  | zero => exact foldlM_enter_mono (fun _ _ _ h => by cases h) h
  | succ depth ih => exact foldlM_enter_mono (fun _ _ _ h => ih h) h

theorem walk_mono {depth deeper : Nat} (hle : depth ≤ deeper) {place q : List N} {path : List (Comp N)}
    (h : walk look depth place path = some q) : walk look deeper place path = some q := by
  induction hle with
  | refl => exact h
  | step _ ih => exact walk_succ ih

theorem Leads.unique {place q q' : List N} {path : List (Comp N)} (h : Leads look place path q)
    (h' : Leads look place path q') : q = q' := by
  obtain ⟨d, hd⟩ := h
  obtain ⟨d', hd'⟩ := h'
  have hmax := walk_mono (Nat.le_max_left d d') hd
  exact Option.some.inj (hmax.symm.trans (walk_mono (Nat.le_max_right d d') hd'))

theorem Leads.append {place mid q : List N} {xs ys : List (Comp N)} (hx : Leads look place xs mid)
    (hy : Leads look mid ys q) : Leads look place (xs ++ ys) q := by
  obtain ⟨d, hd⟩ := hx
  obtain ⟨d', hd'⟩ := hy
  refine ⟨max d d', ?_⟩
  rw [walk_append, walk_mono (Nat.le_max_left d d') hd, Option.bind_some]
  exact walk_mono (Nat.le_max_right d d') hd'

theorem Canonical.dropLast {place : List N} (h : Canonical look place) : Canonical look place.dropLast :=
  fun p n hp => h p n (hp.trans (List.dropLast_prefix place))

theorem canonical_nil : Canonical look [] := by
  intro p n hp
  exact absurd (List.prefix_nil.mp hp) (by simp)

theorem Canonical.snoc {place : List N} {n : N} (h : Canonical look place)
    (hn : look (place ++ [n]) = some .plain) : Canonical look (place ++ [n]) := by
  intro p m hp
  rcases List.prefix_concat_iff.mp hp with heq | hpre
  · rw [heq]
    exact hn
  · exact h p m hpre

theorem walk_canonical {depth : Nat} {place q : List N} {path : List (Comp N)} (hplace : Canonical look place)
    (h : walk look depth place path = some q) : Canonical look q := by
  induction depth using Nat.strongRecOn generalizing place path q with
  | ind depth ih =>
      obtain ⟨follow, hfollow, hwalk⟩ := walk_eq_foldlM look depth
      rw [hwalk] at h
      induction path generalizing place with
      | nil =>
          cases h
          exact hplace
      | cons c path ihp =>
          rw [List.foldlM_cons] at h
          obtain ⟨mid, hmid, hrest⟩ := Option.bind_eq_some_iff.mp h
          refine ihp ?_ hrest
          cases c with
          | up =>
              cases hmid
              exact hplace.dropLast
          | name n =>
              rw [enter] at hmid
              split at hmid
              · cases hmid
              · rename_i hplain
                cases hmid
                exact hplace.snoc hplain
              · rename_i absolute target hlink
                obtain ⟨d, hd, hstep⟩ := hfollow _ _ _ hmid
                refine ih d hd ?_ hstep
                split
                · exact canonical_nil
                · exact hplace

theorem Leads.canonical {place q : List N} {path : List (Comp N)} (hplace : Canonical look place)
    (h : Leads look place path q) : Canonical look q := by
  obtain ⟨depth, hd⟩ := h
  exact walk_canonical hplace hd

theorem walk_names (depth : Nat) {place names : List N} (h : Canonical look (place ++ names)) :
    walk look depth place (names.map .name) = some (place ++ names) := by
  induction names generalizing place with
  | nil => simp
  | cons n names ih =>
      have hn : look (place ++ [n]) = some .plain := h place n (by simp)
      rw [List.map_cons, walk_plain hn, ih (by simpa using h)]
      simp

def follow (look : List N → Option (Kind N)) (depth : Nat) (link : List N) : Option (List N) :=
  match look link with
  | some (.link absolute target) => walk look depth (if absolute then [] else link.dropLast) target
  | _ => none

def Needs (look : List N → Option (Kind N)) (link : List N) (depth : Nat) : Prop :=
  (follow look depth link).isSome = true ∧ ∀ d < depth, follow look d link = none

theorem Needs.unique {link : List N} {d d' : Nat} (h : Needs look link d) (h' : Needs look link d') : d = d' := by
  rcases Nat.lt_trichotomy d d' with hlt | heq | hlt
  · rw [Needs, h'.2 d hlt] at h
    cases h.1
  · exact heq
  · rw [Needs, h.2 d' hlt] at h'
    cases h'.1

theorem follow_mono {depth deeper : Nat} (hle : depth ≤ deeper) {link q : List N}
    (h : follow look depth link = some q) : follow look deeper link = some q := by
  rw [follow] at h ⊢
  split at h
  · exact walk_mono hle h
  · cases h

theorem Needs.link {link : List N} {depth : Nat} (h : Needs look link depth) :
    (look link).any Kind.isLink = true := by
  obtain ⟨hsome, -⟩ := h
  rw [follow] at hsome
  split at hsome
  · rename_i hlook
    rw [hlook]
    rfl
  · cases hsome

/-- A path that leads somewhere at one depth and not at the one before has a link on
it that needs just that much. -/
theorem exists_needs {depth : Nat} {place q : List N} {path : List (Comp N)}
    (h : walk look (depth + 1) place path = some q) (hless : walk look depth place path = none) :
    ∃ link, Needs look link depth := by
  induction path generalizing place with
  | nil => simp at hless
  | cons c path ih =>
      cases c with
      | up =>
          rw [walk_up] at h hless
          exact ih h hless
      | name n =>
          cases hlook : look (place ++ [n]) with
          | none => simp [walk, enter, hlook] at h
          | some kind =>
              cases kind with
              | plain =>
                  rw [walk_plain hlook] at h hless
                  exact ih h hless
              | link absolute target =>
                  have hfollow : ∀ d, follow look d (place ++ [n]) =
                      walk look d (if absolute then [] else place) target := by
                    intro d
                    simp [follow, hlook]
                  rw [walk_link hlook, ← hfollow] at h
                  obtain ⟨mid, hmid, hrest⟩ := Option.bind_eq_some_iff.mp h
                  cases depth with
                  | zero => exact ⟨place ++ [n], by simp [hmid], fun _ hd => absurd hd (Nat.not_lt_zero _)⟩
                  | succ depth =>
                      rw [walk_link hlook, ← hfollow] at hless
                      cases hearly : follow look depth (place ++ [n]) with
                      | none =>
                          refine ⟨place ++ [n], by simp [hmid], fun d hd => ?_⟩
                          cases hd' : follow look d (place ++ [n]) with
                          | none => rfl
                          | some q' => cases hearly.symm.trans (follow_mono (Nat.le_of_lt_succ hd) hd')
                      | some mid' =>
                          cases hmid.symm.trans (follow_mono (Nat.le_succ depth) hearly)
                          rw [hearly, Option.bind_some] at hless
                          exact ih hrest hless

/-- Below a link that needs some depth there is one for each depth before. -/
theorem Needs.chain {depth : Nat} {link : List N} (h : Needs look link depth) :
    ∃ links : List (List N), links.length = depth + 1 ∧ links.Nodup ∧
      ∀ l ∈ links, ∃ d ≤ depth, Needs look l d := by
  induction depth generalizing link with
  | zero =>
      refine ⟨[link], rfl, List.pairwise_singleton _ _, fun l hl => ⟨0, Nat.le_refl _, ?_⟩⟩
      rw [List.mem_singleton.mp hl]
      exact h
  | succ depth ih =>
      have hbelow : ∃ l, Needs look l depth := by
        obtain ⟨q, hq⟩ := Option.isSome_iff_exists.mp h.1
        have hless := h.2 depth (Nat.lt_succ_self _)
        rw [follow] at hq hless
        split at hq
        · rename_i hlook
          simp only [hlook] at hless
          exact exists_needs hq hless
        · cases hq
      obtain ⟨l, hl⟩ := hbelow
      obtain ⟨links, hlength, hnodup, hneeds⟩ := ih hl
      refine ⟨link :: links, by rw [List.length_cons, hlength], List.nodup_cons.mpr ⟨?_, hnodup⟩, ?_⟩
      · intro hmem
        obtain ⟨d, hd, hn⟩ := hneeds link hmem
        have := h.unique hn
        omega
      · intro l' hl'
        rcases List.mem_cons.mp hl' with rfl | hrest
        · exact ⟨depth + 1, Nat.le_refl _, h⟩
        · obtain ⟨d, hd, hn⟩ := hneeds l' hrest
          exact ⟨d, Nat.le_succ_of_le hd, hn⟩

theorem Needs.lt {links : List (List N)} (hlinks : ∀ p, (look p).any Kind.isLink = true → p ∈ links)
    {depth : Nat} {link : List N} (h : Needs look link depth) : depth < links.length := by
  obtain ⟨chain, hlength, hnodup, hneeds⟩ := h.chain
  have hsub : chain ⊆ links := by
    intro l hl
    obtain ⟨d, -, hn⟩ := hneeds l hl
    exact hlinks l hn.link
  have hle := (hnodup.subperm hsub).length_le
  omega

theorem leads_iff {links : List (List N)} (hlinks : ∀ p, (look p).any Kind.isLink = true → p ∈ links)
    {place q : List N} {path : List (Comp N)} :
    Leads look place path q ↔ walk look links.length place path = some q := by
  constructor
  · rintro ⟨depth, h⟩
    induction depth with
    | zero => exact walk_mono (Nat.zero_le _) h
    | succ depth ih =>
        cases hless : walk look depth place path with
        | none =>
            obtain ⟨link, hneeds⟩ := exists_needs h hless
            exact walk_mono (hneeds.lt hlinks) h
        | some q' =>
            cases h.symm.trans (walk_succ hless)
            exact ih hless
  · exact fun h => ⟨_, h⟩

end EovpnPro.Resolution
