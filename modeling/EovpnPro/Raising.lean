import Mathlib.Data.List.Forall2

namespace EovpnPro.Raising

variable {σ ε α β γ : Type}

/-- A program that an exception ends where it is raised. What it has assigned by then
stays assigned. -/
abbrev Program (ε σ : Type) := ExceptT ε (StateM σ)

def ask (reply : Except ε α) : Program ε σ α := fun s => (reply, s)

/-- The `finally` block runs on either way out, and its own exception takes the place of
the one that is on its way. -/
def finallyDo (m : Program ε σ α) (block : Program ε σ Unit) : Program ε σ α := do
  let a ← tryCatch m fun x => do
    block
    throw x
  block
  pure a

/-- Try one program after another until one of them returns true. An exception is as good
as false. -/
def firstOf : List (Program ε σ Bool) → Program ε σ Bool
  | [] => pure false
  | attempt :: rest => do
      let done ← tryCatch attempt fun _ => pure false
      if done then pure true else firstOf rest

def Ends (Q : α → σ → Prop) (E : ε → σ → Prop) : Except ε α × σ → Prop
  | (.ok a, t) => Q a t
  | (.error x, t) => E x t

def Triple (P : σ → Prop) (m : Program ε σ α) (Q : α → σ → Prop) (E : ε → σ → Prop) : Prop :=
  ∀ s, P s → Ends Q E (m s)

def Stays (I : σ → Prop) (m : Program ε σ α) : Prop := Triple I m (fun _ => I) fun _ => I

section Rules

variable {P P' : σ → Prop} {Q Q' : α → σ → Prop} {R : β → σ → Prop} {E E' F : ε → σ → Prop}
variable {m : Program ε σ α} {s t : σ}

theorem run_bind_ok {k : α → Program ε σ β} {a : α} (h : m s = (.ok a, t)) : (m >>= k) s = k a t := by
  change ExceptT.bindCont k (m s).1 (m s).2 = k a t
  rw [h]
  rfl

theorem run_bind_error {k : α → Program ε σ β} {x : ε} (h : m s = (.error x, t)) :
    (m >>= k) s = (.error x, t) := by
  change ExceptT.bindCont k (m s).1 (m s).2 = (.error x, t)
  rw [h]
  rfl

theorem run_tryCatch_ok {k : ε → Program ε σ α} {a : α} (h : m s = (.ok a, t)) :
    (tryCatch m k : Program ε σ α) s = (.ok a, t) := by
  change (match (m s).1 with
    | .ok a => (pure (.ok a) : StateM σ (Except ε α))
    | .error x => k x) (m s).2 = (.ok a, t)
  rw [h]
  rfl

theorem run_tryCatch_error {k : ε → Program ε σ α} {x : ε} (h : m s = (.error x, t)) :
    (tryCatch m k : Program ε σ α) s = k x t := by
  change (match (m s).1 with
    | .ok a => (pure (.ok a) : StateM σ (Except ε α))
    | .error x => k x) (m s).2 = k x t
  rw [h]

theorem Ends.mono {o : Except ε α × σ} (h : Ends Q E o) (hQ : ∀ a t, Q a t → Q' a t)
    (hE : ∀ x t, E x t → E' x t) : Ends Q' E' o := by
  obtain ⟨result, t⟩ := o
  cases result with
  | ok a => exact hQ a t h
  | error x => exact hE x t h

theorem Triple.consequence (h : Triple P m Q E) (hP : ∀ s, P' s → P s) (hQ : ∀ a t, Q a t → Q' a t)
    (hE : ∀ x t, E x t → E' x t) : Triple P' m Q' E' := by
  intro s hs
  apply (h s (hP s hs)).mono hQ hE

theorem triple_pure {a : α} (h : ∀ s, P s → Q a s) : Triple P (pure a : Program ε σ α) Q E := h

theorem triple_throw {x : ε} (h : ∀ s, P s → E x s) : Triple P (throw x : Program ε σ α) Q E := h

theorem triple_modify {f : σ → σ} {Q : Unit → σ → Prop} (h : ∀ s, P s → Q () (f s)) :
    Triple P (modify f : Program ε σ Unit) Q E := h

theorem triple_get {k : σ → Program ε σ β} (h : ∀ s, P s → Ends R E (k s s)) :
    Triple P (get >>= k) R E := h

theorem Triple.bind {k : α → Program ε σ β} (hm : Triple P m Q E) (hk : ∀ a, Triple (Q a) (k a) R E) :
    Triple P (m >>= k) R E := by
  intro s hs
  have h := hm s hs
  rcases hr : m s with ⟨result, t⟩
  rw [hr] at h
  cases result with
  | ok a =>
      rw [run_bind_ok hr]
      exact hk a t h
  | error x =>
      rw [run_bind_error hr]
      exact h

theorem triple_ask {reply : Except ε α} {k : α → Program ε σ β}
    (hok : ∀ a, reply = .ok a → Triple P (k a) R E) (herror : ∀ x, reply = .error x → ∀ s, P s → E x s) :
    Triple P (ask reply >>= k) R E := by
  intro s hs
  cases reply with
  | ok a => exact hok a rfl s hs
  | error x => exact herror x rfl s hs

theorem Triple.tryCatch {k : ε → Program ε σ α} (hm : Triple P m Q F)
    (hk : ∀ x, Triple (F x) (k x) Q E) : Triple P (tryCatch m k) Q E := by
  intro s hs
  have h := hm s hs
  rcases hr : m s with ⟨result, t⟩
  rw [hr] at h
  cases result with
  | ok a =>
      rw [run_tryCatch_ok hr]
      exact h
  | error x =>
      rw [run_tryCatch_error hr]
      exact hk x t h

theorem Triple.finallyDo {block : Program ε σ Unit} (hm : Triple P m Q F)
    (hok : ∀ a, Triple (Q a) block (fun _ => Q' a) E)
    (herror : ∀ x, Triple (F x) block (fun _ => E x) E) : Triple P (finallyDo m block) Q' E := by
  apply Triple.bind (Q := Q)
  · apply Triple.tryCatch hm
    intro x
    apply (herror x).bind
    intro _
    exact triple_throw fun _ h => h
  · intro a
    apply (hok a).bind
    intro _
    exact triple_pure fun _ h => h

theorem Triple.ite {c : Prop} [Decidable c] {n : Program ε σ α} (hm : c → Triple P m Q E)
    (hn : ¬c → Triple P n Q E) : Triple P (if c then m else n) Q E := by
  by_cases hc : c
  · rw [if_pos hc]
    exact hm hc
  · rw [if_neg hc]
    exact hn hc

end Rules

section Invariants

variable {I : σ → Prop} {m n : Program ε σ α}

theorem stays_ask (reply : Except ε α) : Stays I (ask reply : Program ε σ α) := by
  intro s hs
  cases reply with
  | ok => exact hs
  | error => exact hs

theorem stays_pure (a : α) : Stays I (pure a : Program ε σ α) := triple_pure fun _ h => h

theorem stays_throw (x : ε) : Stays I (throw x : Program ε σ α) := triple_throw fun _ h => h

theorem stays_modify {f : σ → σ} (h : ∀ s, I s → I (f s)) : Stays I (modify f : Program ε σ Unit) :=
  triple_modify h

theorem Stays.bind {k : α → Program ε σ β} (hm : Stays I m) (hk : ∀ a, Stays I (k a)) :
    Stays I (m >>= k) :=
  Triple.bind hm hk

theorem Stays.tryCatch {k : ε → Program ε σ α} (hm : Stays I m) (hk : ∀ x, Stays I (k x)) :
    Stays I (tryCatch m k) :=
  Triple.tryCatch hm hk

theorem Stays.ite {c : Prop} [Decidable c] (hm : Stays I m) (hn : Stays I n) :
    Stays I (if c then m else n) :=
  Triple.ite (fun _ => hm) fun _ => hn

end Invariants

section FirstOf

variable {Q : γ → σ → Prop} {attempt : Program ε σ Bool} {attempts : List (Program ε σ Bool)}
variable {answer : Option γ} {answers : List (Option γ)} {s : σ}

theorem firstOf_done {t : σ} (h : attempt s = (.ok true, t)) : firstOf (attempt :: attempts) s = (.ok true, t) := by
  rw [firstOf, run_bind_ok (run_tryCatch_ok h)]
  rfl

theorem firstOf_skips (h : attempt s = (.ok false, s) ∨ ∃ x, attempt s = (.error x, s)) :
    firstOf (attempt :: attempts) s = firstOf attempts s := by
  have hcaught : (tryCatch attempt fun _ => pure false : Program ε σ Bool) s = (.ok false, s) := by
    rcases h with h | ⟨x, h⟩
    · exact run_tryCatch_ok h
    · rw [run_tryCatch_error h]
      rfl
  rw [firstOf, run_bind_ok hcaught]
  rfl

/-- Where an attempt on `s` that has this answer is to end: true with the answer in place,
or false with everything as it was. -/
def Settled (Q : γ → σ → Prop) (s : σ) : Option γ → Bool → σ → Prop
  | some a, done, t => done = true ∧ Q a t
  | none, done, t => done = false ∧ t = s

def Answers (Q : γ → σ → Prop) (attempt : Program ε σ Bool) (answer : Option γ) : Prop :=
  ∀ s, Triple (· = s) attempt (Settled Q s answer) fun _ t => answer = none ∧ t = s

theorem Answers.caught {E : ε → σ → Prop} (h : Answers Q attempt answer) (s : σ) :
    Triple (· = s) (tryCatch attempt fun _ => pure false) (Settled Q s answer) E := by
  apply (h s).tryCatch
  intro x
  apply triple_pure
  rintro t ⟨rfl, ht⟩
  exact ⟨rfl, ht⟩

theorem firstOf_answers (h : List.Forall₂ (Answers Q) attempts answers) (s : σ) :
    Triple (· = s) (firstOf attempts) (Settled Q s (answers.findSome? id)) fun _ _ => False := by
  induction h generalizing s with
  | nil => exact triple_pure fun t ht => ⟨rfl, ht⟩
  | @cons attempt answer attempts answers hattempt _ ih =>
      apply (hattempt.caught s).bind
      intro done
      cases answer with
      | some a =>
          rintro t ⟨rfl, ha⟩
          exact ⟨rfl, ha⟩
      | none =>
          rintro t ⟨rfl, rfl⟩
          exact ih t t rfl

theorem answers_ask {δ : Type} {reply : Except ε δ} {k : δ → Program ε σ Bool} {f : δ → Option γ}
    (h : ∀ a, reply = .ok a → Answers Q (k a) (f a)) : Answers Q (ask reply >>= k) (reply.toOption.bind f) := by
  intro s
  cases reply with
  | ok a =>
      rintro t rfl
      exact h a rfl t t rfl
  | error x =>
      rintro t rfl
      exact ⟨rfl, rfl⟩

theorem answers_false : Answers Q (pure false : Program ε σ Bool) none :=
  fun _ => triple_pure fun _ ht => ⟨rfl, ht⟩

end FirstOf

end EovpnPro.Raising
