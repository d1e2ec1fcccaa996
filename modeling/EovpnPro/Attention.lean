import EovpnPro.Credentials
import EovpnPro.SessionSubscriptions

namespace EovpnPro.Attention

open Events OpenVpn3Status OpenVpn3Backend OpenVpn3Watch SessionSubscriptions Subscriptions Runs
open Credentials (Page)

variable {σ : Type}

/-- The Python constants of the service: the values that its enumerations know, and the
two that an OTP is sent with. -/
structure Constants where
  majors : List Nat
  minors : List Nat
  types : List Nat
  groups : List Nat
  credentials : Nat
  challengeStatic : Nat

structure Slot where
  type : Nat
  group : Nat
  id : Nat
  deriving DecidableEq, Repr

structure Ask where
  slot : Slot
  name : String
  deriving DecidableEq, Repr

/-- The session service, as the calls that are made to it. A call that fails has no answer. -/
structure Service (σ : Type) where
  typeGroups : σ → String → Option (List (Nat × Nat))
  check : σ → String → Nat × Nat → Option (List Nat)
  fetch : σ → String → Slot → Option String
  provide : σ → String → Slot → String → Option σ
  setDco : σ → String → Bool → Option σ
  ready : σ → String → Bool

structure Sent where
  session : String
  slot : Slot
  text : String
  deriving DecidableEq, Repr

/-- The backend with its listener, the credentials, the DCO setting and the service. For
each open dialog, and for each value that was sent, newest first, what it was for. -/
structure Desk (σ : Type) where
  backend : OpenVpn3
  page : Page
  dco : Bool
  service : σ
  dialogs : List (String × Slot) := []
  sent : List Sent := []

variable (c : Constants) (service : Service σ)

/-- The innermost call of `get_attention`. A type or a group that the constants do not
know raises. -/
def fetchAsk (s : σ) (path : String) (tg : Nat × Nat) (i : Nat) : Option Ask :=
  (service.fetch s path ⟨tg.1, tg.2, i⟩).bind fun name =>
    if tg.1 ∈ c.types ∧ tg.2 ∈ c.groups then some ⟨⟨tg.1, tg.2, i⟩, name⟩ else none

def fetchGroup (s : σ) (path : String) (tg : Nat × Nat) : Option (List Ask) :=
  (service.check s path tg).bind fun ids => ids.mapM (fetchAsk c service s path tg)

/-- `get_attention`, `none` where it raises. -/
def getAttention (s : σ) (path : String) : Option (List Ask) :=
  (service.typeGroups s path).bind fun groups =>
    (groups.mapM (fetchGroup c service s path)).map List.flatten

/-- `send_auth`, which passes over a call that fails. -/
def sendAuth (d : Desk σ) (path : String) (slot : Slot) (text : String) : Desk σ :=
  { d with
    service := (service.provide d.service path slot text).getD d.service
    sent := ⟨path, slot, text⟩ :: d.sent }

/-- What an input of this name is answered with, where the keyring answers so. -/
def reply (page : Page) (lookup : Credentials.Lookup) (name : String) : Option String :=
  if name = "username" then (Credentials.attention page lookup).username
  else if name = "password" then (Credentials.attention page lookup).password
  else none

def process (path : String) (lookups : Nat → Credentials.Lookup) (d : Desk σ) (asked : Ask × Nat) : Desk σ :=
  match reply d.page (lookups asked.2) asked.1.name with
  | some text => sendAuth service d path asked.1.slot text
  | none => if asked.1.name = "static_challenge" then { d with dialogs := (path, asked.1.slot) :: d.dialogs } else d

def tryToConnect (d : Desk σ) (path : String) : Desk σ :=
  { d with backend := OpenVpn3Backend.tryToConnect d.backend (service.ready d.service path) }

/-- `sub_attention_signal`. Which session a signal comes from is not looked at. -/
def subAttentionSignal (d : Desk σ) (major minor : Nat) (lookups : Nat → Credentials.Lookup) : Desk σ :=
  match d.backend.sessionPath with
  | none => d
  | some path =>
      if !d.backend.constants || !d.backend.module || decide (major ∉ c.majors ∨ minor ∉ c.minors) then d
      else match getAttention c service d.service path with
        | none => d
        | some attention =>
            let d := attention.zipIdx.foldl (process service path lookups) d
            match service.setDco d.service path d.dco with
            | none => d
            | some s => tryToConnect service { d with service := s } path

/-- `send_otp`, always for the first static challenge. -/
def sendOtp (d : Desk σ) (otp : List String) : Desk σ :=
  match d.backend.sessionPath with
  | none => d
  | some path =>
      if d.backend.constants then
        tryToConnect service (sendAuth service d path ⟨c.credentials, c.challengeStatic, 0⟩ (String.join otp)) path
      else d

/-- `others` is whatever the service and its other clients do in between. -/
inductive Action (σ : Type)
  | call (action : OpenVpn3Backend.Action)
  | edit (page : Page) (dco : Bool)
  | others (service : σ)
  | attentionRequired (id major minor : Nat) (lookups : Nat → Credentials.Lookup)
  | submit (k : Nat) (otp : List String)
  | close (k again : Nat)

def step (d : Desk σ) : Action σ → Option (Desk σ)
  | .call (.attentionRequired ..) | .call (.otp ..) => none
  | .call action => (OpenVpn3Backend.step d.backend action).map fun b => { d with backend := b }
  | .edit page dco => some { d with page, dco }
  | .others s => some { d with service := s }
  | .attentionRequired id major minor lookups =>
      if d.backend.bus.live.any fun s => decide (s.1 = id) && !s.2.isStatus then
        some (subAttentionSignal c service d major minor lookups)
      else none
  | .submit k otp =>
      if k < d.dialogs.length then some (sendOtp c service { d with dialogs := d.dialogs.eraseIdx k } otp) else none
  | .close k again =>
      if k < d.dialogs.length then
        some { d with dialogs := d.dialogs.eraseIdx k, backend := callBack d.backend (.bool false) none again }
      else none

/-- What the service documents of its queue, where `Asks` is what it still requires of a
session: the calls list exactly that, an input that is provided is required no more,
nothing else changes by it, and a session is ready only when nothing is required. -/
structure Lawful (service : Service σ) (Asks : σ → String → Ask → Prop) : Prop where
  distinct : ∀ {s path a b}, Asks s path a → Asks s path b → a.slot = b.slot → a = b
  typeGroups : ∀ {s path groups}, service.typeGroups s path = some groups →
    groups.Nodup ∧ ∀ t g, (t, g) ∈ groups ↔ ∃ i name, Asks s path ⟨⟨t, g, i⟩, name⟩
  check : ∀ {s path t g ids}, service.check s path (t, g) = some ids →
    ids.Nodup ∧ ∀ i, i ∈ ids ↔ ∃ name, Asks s path ⟨⟨t, g, i⟩, name⟩
  fetch : ∀ {s path slot name}, service.fetch s path slot = some name → Asks s path ⟨slot, name⟩
  provide : ∀ {s t path slot text}, service.provide s path slot text = some t →
    ∀ other a, Asks t other a ↔ Asks s other a ∧ (other = path → a.slot ≠ slot)
  setDco : ∀ {s t path on}, service.setDco s path on = some t → ∀ other a, Asks t other a ↔ Asks s other a
  ready : ∀ {s path}, service.ready s path = true → ∀ a, ¬Asks s path a

variable {c : Constants} {service : Service σ} {Asks : σ → String → Ask → Prop} {s : σ} {path : String}
  {d t : Desk σ} {asks attention : List Ask} {lookups : Nat → Credentials.Lookup}

theorem mapM_eq_some {α β : Type} {f : α → Option β} {as : List α} {bs : List β} :
    as.mapM f = some bs ↔ List.Forall₂ (fun a b => f a = some b) as bs := by
  induction as generalizing bs with
  | nil => cases bs <;> simp
  | cons a as ih =>
      rw [List.mapM_cons, List.forall₂_cons_left_iff]
      cases ha : f a with
      | none => simp
      | some b =>
          cases has : as.mapM f with
          | none =>
              have hno : ∀ bs, ¬List.Forall₂ (fun a b => f a = some b) as bs := by
                intro bs hbs
                rw [← ih, has] at hbs
                cases hbs
              simp [hno]
          | some cs =>
              have hcs : ∀ bs, List.Forall₂ (fun a b => f a = some b) as bs ↔ cs = bs := by
                intro bs
                rw [← ih, has, Option.some.injEq]
              simp [hcs, eq_comm]

def slotsOf (service : Service σ) (s : σ) (path : String) (tg : Nat × Nat) : List Slot :=
  ((service.check s path tg).getD []).map fun i => ⟨tg.1, tg.2, i⟩

theorem fetchGroup_slots {tg : Nat × Nat} (h : fetchGroup c service s path tg = some asks) :
    (∃ ids, service.check s path tg = some ids) ∧ asks.map Ask.slot = slotsOf service s path tg ∧
      ∀ a ∈ asks, service.fetch s path a.slot = some a.name := by
  obtain ⟨ids, hids, hasks⟩ := Option.bind_eq_some_iff.mp h
  refine ⟨⟨ids, hids⟩, ?_⟩
  rw [slotsOf, hids, Option.getD_some]
  rw [mapM_eq_some] at hasks
  clear h hids
  induction hasks with
  | nil => simp
  | @cons i a ids asks ha _ ih =>
      obtain ⟨name, hname, hknown⟩ := Option.bind_eq_some_iff.mp ha
      split at hknown
      · obtain rfl := Option.some.inj hknown
        rw [List.map_cons, List.map_cons, ih.1]
        exact ⟨rfl, List.forall_mem_cons.mpr ⟨hname, ih.2⟩⟩
      · cases hknown

theorem getAttention_slots (h : getAttention c service s path = some asks) :
    ∃ groups, service.typeGroups s path = some groups ∧
      (∀ tg ∈ groups, ∃ ids, service.check s path tg = some ids) ∧
      asks.map Ask.slot = groups.flatMap (slotsOf service s path) ∧
      ∀ a ∈ asks, service.fetch s path a.slot = some a.name := by
  obtain ⟨groups, hgroups, hg⟩ := Option.bind_eq_some_iff.mp h
  obtain ⟨lists, hlists, rfl⟩ := Option.map_eq_some_iff.mp hg
  refine ⟨groups, hgroups, ?_⟩
  rw [mapM_eq_some] at hlists
  clear h hg hgroups
  induction hlists with
  | nil => simp
  | @cons tg asks groups lists htg _ ih =>
      obtain ⟨hchecked, hslots, hfetched⟩ := fetchGroup_slots htg
      obtain ⟨ihc, ihs, ihf⟩ := ih
      refine ⟨List.forall_mem_cons.mpr ⟨hchecked, ihc⟩, ?_, ?_⟩
      · rw [List.flatten_cons, List.map_append, hslots, ihs, List.flatMap_cons]
      · rw [List.flatten_cons]
        exact List.forall_mem_append.mpr ⟨hfetched, ihf⟩

theorem Lawful.mem_slotsOf (hl : Lawful service Asks) {tg : Nat × Nat} {ids : List Nat}
    (h : service.check s path tg = some ids) {slot : Slot} :
    slot ∈ slotsOf service s path tg ↔ (slot.type, slot.group) = tg ∧ ∃ name, Asks s path ⟨slot, name⟩ := by
  obtain ⟨type, group⟩ := tg
  rw [slotsOf, h, Option.getD_some, List.mem_map]
  constructor
  · rintro ⟨i, hi, rfl⟩
    exact ⟨rfl, ((hl.check h).2 i).mp hi⟩
  · rintro ⟨htg, name, hasks⟩
    obtain ⟨rfl, rfl⟩ := Prod.mk.inj htg
    exact ⟨slot.id, ((hl.check h).2 slot.id).mpr ⟨name, hasks⟩, rfl⟩

theorem Lawful.nodup_slotsOf (hl : Lawful service Asks) (tg : Nat × Nat) : (slotsOf service s path tg).Nodup := by
  rw [slotsOf]
  cases h : service.check s path tg with
  | none => exact List.nodup_nil
  | some ids => exact ((hl.check h).1).map fun i j hij => (Slot.mk.inj hij).2.2

/-- Of a lawful service `get_attention` brings each input that is required, once. -/
theorem Lawful.getAttention (hl : Lawful service Asks) (h : getAttention c service s path = some asks) :
    (asks.map Ask.slot).Nodup ∧ ∀ a, a ∈ asks ↔ Asks s path a := by
  obtain ⟨groups, hgroups, hchecked, hslots, hfetched⟩ := getAttention_slots h
  obtain ⟨hnodup, hmem⟩ := hl.typeGroups hgroups
  have hasked : ∀ slot, slot ∈ asks.map Ask.slot ↔ ∃ name, Asks s path ⟨slot, name⟩ := by
    intro slot
    rw [hslots, List.mem_flatMap]
    constructor
    · rintro ⟨tg, htg, hslot⟩
      obtain ⟨ids, hids⟩ := hchecked tg htg
      exact ((hl.mem_slotsOf hids).mp hslot).2
    · rintro ⟨name, hname⟩
      have htg := (hmem slot.type slot.group).mpr ⟨slot.id, name, hname⟩
      obtain ⟨ids, hids⟩ := hchecked _ htg
      exact ⟨_, htg, (hl.mem_slotsOf hids).mpr ⟨rfl, name, hname⟩⟩
  refine ⟨?_, fun a => ⟨fun ha => hl.fetch (hfetched a ha), fun ha => ?_⟩⟩
  · rw [hslots, List.nodup_flatMap]
    refine ⟨fun tg _ => hl.nodup_slotsOf tg, hnodup.imp_of_mem fun {x y} hx hy hne slot hs ht => ?_⟩
    obtain ⟨ids, hids⟩ := hchecked x hx
    obtain ⟨others, hothers⟩ := hchecked y hy
    exact hne (((hl.mem_slotsOf hids).mp hs).1.symm.trans ((hl.mem_slotsOf hothers).mp ht).1)
  · obtain ⟨b, hb, hslot⟩ := List.mem_map.mp ((hasked a.slot).mpr ⟨a.name, ha⟩)
    exact hl.distinct (hl.fetch (hfetched b hb)) ha hslot ▸ hb

def sends (page : Page) (lookups : Nat → Credentials.Lookup) (path : String) (asked : List (Ask × Nat)) : List Sent :=
  asked.filterMap fun a => (reply page (lookups a.2) a.1.name).map fun text => ⟨path, a.1.slot, text⟩

def challenges (path : String) (asked : List (Ask × Nat)) : List (String × Slot) :=
  (asked.filter fun a => a.1.name = "static_challenge").map fun a => (path, a.1.slot)

def isCredential (name : String) : Bool := name = "username" ∨ name = "password"

theorem reply_of_credential {name : String} (h : isCredential name = true) (page : Page) (lookup : Credentials.Lookup) :
    ∃ text, reply page lookup name = some text := by
  simp only [isCredential, decide_eq_true_eq] at h
  obtain rfl | rfl := h <;> exact ⟨_, rfl⟩

theorem reply_of_not_credential {name : String} (h : isCredential name = false) (page : Page)
    (lookup : Credentials.Lookup) : reply page lookup name = none := by
  simp only [isCredential, decide_eq_false_iff_not, not_or] at h
  rw [reply, if_neg h.1, if_neg h.2]

structure Looped (path : String) (lookups : Nat → Credentials.Lookup) (asked : List (Ask × Nat)) (d t : Desk σ) :
    Prop where
  backend : t.backend = d.backend
  page : t.page = d.page
  dco : t.dco = d.dco
  dialogs : t.dialogs = (challenges path asked).reverse ++ d.dialogs
  sent : t.sent = (sends d.page lookups path asked).reverse ++ d.sent

theorem looped_process (path : String) (lookups : Nat → Credentials.Lookup) (d : Desk σ) (a : Ask × Nat) :
    Looped path lookups [a] d (process service path lookups d a) := by
  simp only [process]
  cases hc : isCredential a.1.name with
  | true =>
      obtain ⟨text, htext⟩ := reply_of_credential hc d.page (lookups a.2)
      have hno : a.1.name ≠ "static_challenge" := fun hs => by rw [hs] at hc; exact absurd hc (by decide)
      rw [htext]
      exact ⟨rfl, rfl, rfl, by simp [challenges, hno, sendAuth], by simp [sends, htext, sendAuth]⟩
  | false =>
      have htext := reply_of_not_credential hc d.page (lookups a.2)
      rw [htext]
      by_cases hs : a.1.name = "static_challenge"
      · rw [if_pos hs]
        exact ⟨rfl, rfl, rfl, by simp [challenges, hs], by simp [sends, htext]⟩
      · rw [if_neg hs]
        exact ⟨rfl, rfl, rfl, by simp [challenges, hs], by simp [sends, htext]⟩

theorem Looped.cons {a : Ask × Nat} {asked : List (Ask × Nat)} {u : Desk σ} (h : Looped path lookups [a] d u)
    (ht : Looped path lookups asked u t) : Looped path lookups (a :: asked) d t where
  backend := ht.backend.trans h.backend
  page := ht.page.trans h.page
  dco := ht.dco.trans h.dco
  dialogs := by
    have hc : challenges path (a :: asked) = challenges path [a] ++ challenges path asked := by
      rw [challenges, challenges, challenges, ← List.map_append, ← List.filter_append]
      rfl
    rw [ht.dialogs, h.dialogs, hc, List.reverse_append, List.append_assoc]
  sent := by
    have hs : sends d.page lookups path (a :: asked) = sends d.page lookups path [a] ++ sends d.page lookups path asked := by
      rw [sends, sends, sends, ← List.filterMap_append]
      rfl
    rw [ht.sent, h.sent, h.page, hs, List.reverse_append, List.append_assoc]

variable (service) in
theorem looped (path : String) (lookups : Nat → Credentials.Lookup) (asked : List (Ask × Nat)) (d : Desk σ) :
    Looped path lookups asked d (asked.foldl (process service path lookups) d) := by
  induction asked generalizing d with
  | nil => exact ⟨rfl, rfl, rfl, rfl, rfl⟩
  | cons a asked ih => exact (looped_process path lookups d a).cons (ih _)

theorem mem_sends {page : Page} {asked : List (Ask × Nat)} {x : Sent} :
    x ∈ sends page lookups path asked ↔ x.session = path ∧
      ∃ a ∈ asked, a.1.slot = x.slot ∧ reply page (lookups a.2) a.1.name = some x.text := by
  obtain ⟨session, slot, text⟩ := x
  simp only [sends, List.mem_filterMap, Option.map_eq_some_iff, Sent.mk.injEq]
  constructor
  · rintro ⟨a, ha, text, htext, rfl, rfl, rfl⟩
    exact ⟨rfl, a, ha, rfl, htext⟩
  · rintro ⟨rfl, a, ha, rfl, htext⟩
    exact ⟨a, ha, text, htext, rfl, rfl, rfl⟩

variable (service) in
theorem dialled_tryToConnect (hs : d.backend.sessionPath = some path) :
    dialled (tryToConnect service d path).backend.calls =
      (if d.backend.module && service.ready d.service path then [path] else []) ++ dialled d.backend.calls := by
  simp only [tryToConnect, OpenVpn3Backend.tryToConnect, hs]
  split_ifs <;> rfl

/-- What an action may send: an answer to an input that the service asked for, by its
name, or a code for the first static challenge. -/
def Due (c : Constants) (Asks : σ → String → Ask → Prop) (d : Desk σ) (x : Sent) : Action σ → Prop
  | .attentionRequired _ _ _ lookups => ∃ ask k, Asks d.service x.session ask ∧ ask.slot = x.slot ∧
      reply d.page (lookups k) ask.name = some x.text
  | .submit _ otp => x.slot = ⟨c.credentials, c.challengeStatic, 0⟩ ∧ x.text = String.join otp
  | _ => False

/-- None of the calls that tell what a session requires fails, and the constants know
what it is. -/
structure Told (c : Constants) (service : Service σ) (Asks : σ → String → Ask → Prop) (s : σ) (path : String) :
    Prop where
  typeGroups : ∃ groups, service.typeGroups s path = some groups
  check : ∀ tg, ∃ ids, service.check s path tg = some ids
  fetch : ∀ ask, Asks s path ask → ∃ name, service.fetch s path ask.slot = some name
  known : ∀ ask, Asks s path ask → ask.slot.type ∈ c.types ∧ ask.slot.group ∈ c.groups

/-- The listener has its backend and the constants, which know the status of the signal. -/
structure Heard (c : Constants) (b : OpenVpn3) (major minor : Nat) : Prop where
  constants : b.constants = true
  module : b.module = true
  major : major ∈ c.majors
  minor : minor ∈ c.minors

/-- What an action has to see to: every input that is required when a signal is heard. -/
def Owed (c : Constants) (service : Service σ) (Asks : σ → String → Ask → Prop) (d : Desk σ) (path : String) (ask : Ask) :
    Action σ → Prop
  | .attentionRequired _ major minor _ => Heard c d.backend major minor ∧ d.backend.sessionPath = some path ∧
      Told c service Asks d.service path ∧ Asks d.service path ask
  | _ => False

/-- The backend's session is sent what is due, each credential that is owed is among it,
and nothing else. One dialog is opened for each challenge that is owed, and for nothing but
challenges. The session is dialled only when nothing is required of it. -/
structure Proper (c : Constants) (service : Service σ) (Asks : σ → String → Ask → Prop) (d : Desk σ) (a : Action σ)
    (t : Desk σ) : Prop where
  sent : ∃ new, t.sent = new ++ d.sent ∧ (new.map Sent.slot).Nodup ∧
    (∀ x ∈ new, d.backend.sessionPath = some x.session ∧ Due c Asks d x a) ∧
    ∀ path ask, Owed c service Asks d path ask a → isCredential ask.name = true → ask.slot ∈ new.map Sent.slot
  dialled : ∃ new, dialled t.backend.calls = new ++ dialled d.backend.calls ∧
    ∀ path ∈ new, d.backend.sessionPath = some path ∧ ∀ ask, ¬Asks t.service path ask
  dialogs : ∃ opened kept, t.dialogs = opened ++ kept ∧ kept.Sublist d.dialogs ∧ opened.Nodup ∧
    (∀ x ∈ opened, d.backend.sessionPath = some x.1 ∧ Asks d.service x.1 ⟨x.2, "static_challenge"⟩) ∧
    ∀ path ask, Owed c service Asks d path ask a → ask.name = "static_challenge" → (path, ask.slot) ∈ opened

theorem exists_mapM {α β : Type} {f : α → Option β} {as : List α} (h : ∀ a ∈ as, ∃ b, f a = some b) :
    ∃ bs, as.mapM f = some bs := by
  induction as with
  | nil => exact ⟨[], rfl⟩
  | cons a as ih =>
      obtain ⟨b, hb⟩ := h a List.mem_cons_self
      obtain ⟨bs, hbs⟩ := ih fun x hx => h x (List.mem_cons_of_mem _ hx)
      exact ⟨b :: bs, mapM_eq_some.mpr (.cons hb (mapM_eq_some.mp hbs))⟩

theorem Told.getAttention (h : Told c service Asks s path) (hl : Lawful service Asks) :
    ∃ asks, getAttention c service s path = some asks := by
  obtain ⟨groups, hgroups⟩ := h.typeGroups
  have hgroup : ∀ tg ∈ groups, ∃ asks, fetchGroup c service s path tg = some asks := by
    intro tg _
    obtain ⟨ids, hids⟩ := h.check tg
    rw [fetchGroup, hids, Option.bind_some]
    refine exists_mapM fun i hi => ?_
    obtain ⟨name, hname⟩ := ((hl.check hids).2 i).mp hi
    obtain ⟨fetched, hfetched⟩ := h.fetch _ hname
    rw [fetchAsk, hfetched, Option.bind_some, if_pos (h.known _ hname)]
    exact ⟨_, rfl⟩
  obtain ⟨lists, hlists⟩ := exists_mapM hgroup
  exact ⟨lists.flatten, by rw [Attention.getAttention, hgroups, Option.bind_some, hlists, Option.map_some]⟩

theorem Proper.quiet {a : Action σ} (hno : ∀ path ask, ¬Owed c service Asks d path ask a) (hs : t.sent = d.sent)
    (hd : SessionSubscriptions.dialled t.backend.calls = SessionSubscriptions.dialled d.backend.calls)
    (hf : t.dialogs.Sublist d.dialogs) : Proper c service Asks d a t where
  sent := ⟨[], hs, List.nodup_nil, (fun _ h => by cases h), fun path ask h => absurd h (hno path ask)⟩
  dialled := ⟨[], hd, fun _ h => by cases h⟩
  dialogs := ⟨[], t.dialogs, rfl, hf, List.nodup_nil, (fun _ h => by cases h), fun path ask h => absurd h (hno path ask)⟩

theorem Proper.tryToConnect (hl : Lawful service Asks) {u : Desk σ} {a : Action σ} (h : Proper c service Asks d a u)
    (hs : d.backend.sessionPath = some path) (hb : u.backend = d.backend) (s : σ) :
    Proper c service Asks d a (tryToConnect service { u with service := s } path) where
  sent := h.sent
  dialled := by
    have hd := dialled_tryToConnect service (d := { u with service := s }) (hb ▸ hs)
    refine ⟨_, hd.trans (congrArg (_ ++ ·) (congrArg (fun b => SessionSubscriptions.dialled b.calls) hb)),
      fun other hother => ?_⟩
    split_ifs at hother with hr
    · obtain rfl := List.mem_singleton.mp hother
      exact ⟨hs, hl.ready (Bool.and_eq_true_iff.mp hr).2⟩
    · cases hother
  dialogs := h.dialogs

theorem nodup_sends {page : Page} {asked : List (Ask × Nat)} (h : (asked.map fun a => a.1.slot).Nodup) :
    ((sends page lookups path asked).map Sent.slot).Nodup := by
  refine h.sublist ?_
  clear h
  induction asked with
  | nil => exact List.Sublist.slnil
  | cons a asked ih =>
      simp only [sends, List.filterMap_cons, List.map_cons]
      cases reply page (lookups a.2) a.1.name with
      | none => exact ih.cons _
      | some text => exact ih.cons_cons _

theorem challenges_zipIdx (path : String) (asks : List Ask) (k : Nat) : challenges path (asks.zipIdx k) =
    (asks.filter fun a => a.name = "static_challenge").map fun a => (path, a.slot) := by
  induction asks generalizing k with
  | nil => rfl
  | cons a asks ih =>
      simp only [challenges] at ih ⊢
      rw [List.zipIdx_cons, List.filter_cons, List.filter_cons]
      dsimp only
      split_ifs
      · rw [List.map_cons, List.map_cons, ih]
      · exact ih _

variable (c service) in
/-- A signal does nothing, which it does only unheard or when a call fails, or it brings
what the service asks of the session. -/
theorem subAttentionSignal_cases (d : Desk σ) (major minor : Nat) (lookups : Nat → Credentials.Lookup) :
    (subAttentionSignal c service d major minor lookups = d ∧ ∀ path, d.backend.sessionPath = some path →
        Heard c d.backend major minor → getAttention c service d.service path = none) ∨ ∃ path attention,
      d.backend.sessionPath = some path ∧ getAttention c service d.service path = some attention ∧
        (subAttentionSignal c service d major minor lookups = attention.zipIdx.foldl (process service path lookups) d ∨
          ∃ s, subAttentionSignal c service d major minor lookups = tryToConnect service
            { attention.zipIdx.foldl (process service path lookups) d with service := s } path) := by
  simp only [subAttentionSignal]
  cases hs : d.backend.sessionPath with
  | none => exact .inl ⟨rfl, fun _ hp => by cases hp⟩
  | some path =>
      dsimp only
      split_ifs with hknown
      · refine .inl ⟨rfl, fun _ _ hh => ?_⟩
        simp [hh.constants, hh.module, hh.major, hh.minor] at hknown
      · cases hattention : getAttention c service d.service path with
        | none => exact .inl ⟨rfl, fun _ hp _ => Option.some.inj hp ▸ hattention⟩
        | some attention =>
            refine .inr ⟨path, attention, rfl, hattention, ?_⟩
            dsimp only
            cases service.setDco (attention.zipIdx.foldl (process service path lookups) d).service path
                (attention.zipIdx.foldl (process service path lookups) d).dco with
            | none => exact .inl rfl
            | some s => exact .inr ⟨s, rfl⟩

theorem proper_loop (hl : Lawful service Asks) (hs : d.backend.sessionPath = some path)
    (h : getAttention c service d.service path = some attention) (id major minor : Nat) :
    Proper c service Asks d (.attentionRequired id major minor lookups)
      (attention.zipIdx.foldl (process service path lookups) d) := by
  obtain ⟨hnodup, hmem⟩ := hl.getAttention h
  obtain ⟨hbackend, -, -, hdialogs, hsent⟩ := looped service path lookups attention.zipIdx d
  have hslots : (attention.zipIdx.map fun a => a.1.slot) = attention.map Ask.slot := by
    rw [show (fun a : Ask × Nat => a.1.slot) = Ask.slot ∘ Prod.fst from rfl, ← List.map_map, List.zipIdx_map_fst]
  have howed : ∀ other ask, Owed c service Asks d other ask (.attentionRequired id major minor lookups) →
      path = other ∧ ask ∈ attention := by
    rintro other ask ⟨-, hother, -, hask⟩
    obtain rfl := Option.some.inj (hs.symm.trans hother)
    exact ⟨rfl, (hmem ask).mpr hask⟩
  rw [challenges_zipIdx] at hdialogs
  refine ⟨⟨_, hsent, ?_, fun x hx => ?_, fun other ask hask hname => ?_⟩,
    ⟨[], by rw [hbackend, List.nil_append], (fun _ h => by cases h)⟩,
    ⟨_, _, hdialogs, .refl _, ?_, fun x hx => ?_, fun other ask hask hname => ?_⟩⟩
  · rw [List.map_reverse, List.nodup_reverse]
    exact nodup_sends (hslots ▸ hnodup)
  · obtain ⟨rfl, ⟨ask, k⟩, hask, hslot, hreply⟩ := mem_sends.mp (List.mem_reverse.mp hx)
    exact ⟨hs, ask, k, (hmem ask).mp (List.fst_mem_of_mem_zipIdx hask), hslot, hreply⟩
  · obtain ⟨rfl, hin⟩ := howed other ask hask
    obtain ⟨k, hk⟩ := List.mem_iff_getElem?.mp hin
    obtain ⟨text, htext⟩ := reply_of_credential hname d.page (lookups k)
    rw [List.map_reverse, List.mem_reverse]
    exact List.mem_map.mpr ⟨⟨path, ask.slot, text⟩,
      mem_sends.mpr ⟨rfl, (ask, k), List.mem_zipIdx_iff_getElem?.mpr hk, rfl, htext⟩, rfl⟩
  · refine List.nodup_reverse.mpr (.of_map Prod.snd ?_)
    rw [List.map_map]
    exact hnodup.sublist (List.filter_sublist.map Ask.slot)
  · simp only [List.mem_reverse, List.mem_map, List.mem_filter, decide_eq_true_eq] at hx
    obtain ⟨⟨slot, name⟩, ⟨hask, rfl⟩, rfl⟩ := hx
    exact ⟨hs, (hmem _).mp hask⟩
  · obtain ⟨rfl, hin⟩ := howed other ask hask
    exact List.mem_reverse.mpr (List.mem_map_of_mem (List.mem_filter.mpr ⟨hin, decide_eq_true hname⟩))

theorem step_call {action : OpenVpn3Backend.Action} (h : step c service d (.call action) = some t) :
    ∃ b, OpenVpn3Backend.step d.backend action = some b ∧ { d with backend := b } = t := by
  cases action with
  | attentionRequired | otp => cases h
  | startWatch | stopWatch | connect | disconnect | statusChange => exact Option.map_eq_some_iff.mp h

theorem dialled_call {action : OpenVpn3Backend.Action} {b : OpenVpn3} (h : step c service d (.call action) = some t)
    (hb : OpenVpn3Backend.step d.backend action = some b) : dialled b.calls = dialled d.backend.calls := by
  cases action with
  | attentionRequired | otp => cases h
  | statusChange id status reason again =>
      simp only [OpenVpn3Backend.step] at hb
      split_ifs at hb
      obtain rfl := Option.some.inj hb
      have hl := blind_lines.subStatusSignal d.backend status reason again
      split_ifs at hl
      · exact (lines_eq (b := unsubscribeAll d.backend) hl).2.1
      · exact (lines_eq hl).2.1
  | startWatch | stopWatch | connect | disconnect =>
      cases change_of_step hb (by simp) with
      | kept _ _ hl => exact (lines_eq hl).2.1
      | watched _ _ hl => exact (lines_eq hl).2.1
      | dialled path hd => cases hd
      | stopped _ _ hl => exact (lines_eq (b := unsubscribeAll d.backend) hl).2.1

theorem step_proper (hl : Lawful service Asks) {a : Action σ} (h : step c service d a = some t) :
    Proper c service Asks d a t := by
  cases a with
  | call action =>
      obtain ⟨b, hb, rfl⟩ := step_call h
      exact .quiet (fun _ _ => id) rfl (dialled_call h hb) (.refl _)
  | edit page dco | others s =>
      obtain rfl := Option.some.inj h
      exact .quiet (fun _ _ => id) rfl rfl (.refl _)
  | attentionRequired id major minor lookups =>
      simp only [step] at h
      split_ifs at h
      obtain rfl := Option.some.inj h
      obtain ⟨hd, hnone⟩ | ⟨path, attention, hs, hattention, hloop | ⟨s, hdial⟩⟩ :=
        subAttentionSignal_cases c service d major minor lookups
      · rw [hd]
        refine .quiet ?_ rfl rfl (.refl _)
        rintro path ask ⟨hheard, hs, htold, -⟩
        obtain ⟨attention, hattention⟩ := htold.getAttention hl
        rw [hnone path hs hheard] at hattention
        cases hattention
      · rw [hloop]
        exact proper_loop hl hs hattention id major minor
      · rw [hdial]
        exact (proper_loop hl hs hattention id major minor).tryToConnect hl hs (looped service path lookups _ d).backend s
  | submit k otp =>
      simp only [step] at h
      split_ifs at h
      obtain rfl := Option.some.inj h
      have hquiet : Proper c service Asks d (.submit k otp) { d with dialogs := d.dialogs.eraseIdx k } :=
        .quiet (fun _ _ => id) rfl rfl (List.eraseIdx_sublist ..)
      simp only [sendOtp]
      split
      · exact hquiet
      · rename_i path hs
        split_ifs
        · have hsent : Proper c service Asks d (.submit k otp) { d with
              dialogs := d.dialogs.eraseIdx k
              sent := ⟨path, ⟨c.credentials, c.challengeStatic, 0⟩, String.join otp⟩ :: d.sent } := by
            refine ⟨⟨[_], rfl, List.nodup_singleton _, fun x hx => ?_, fun _ _ h => False.elim h⟩, hquiet.dialled,
              hquiet.dialogs⟩
            obtain rfl := List.mem_singleton.mp hx
            exact ⟨hs, rfl, rfl⟩
          exact hsent.tryToConnect hl hs rfl _
        · exact hquiet
  | close k again =>
      simp only [step] at h
      split_ifs at h
      obtain rfl := Option.some.inj h
      exact .quiet (fun _ _ => id) rfl (lines_eq (blind_lines.callBack d.backend _ none again)).2.1 (List.eraseIdx_sublist ..)

/-- Over every run, with or without failing calls: only the backend's own session is sent
anything, each input that a signal is heard for gets what its name asks for, and a session
is dialled only when the service requires nothing of it any more. -/
theorem signals_proper (hl : Lawful service Asks) (d : Desk σ) (actions : List (Action σ)) :
    AllSteps (step c service) (fun d a => ∀ t, step c service d a = some t → Proper c service Asks d a t) d actions := by
  induction actions generalizing d with
  | nil => trivial
  | cons a actions ih => exact fun t _ => ⟨fun u hu => step_proper hl hu, ih t⟩

/-- A queue of required inputs by session, no slot twice, of types and groups that the
constants know. -/
def Queue (c : Constants) : Type :=
  { asked : List (String × Ask) // (asked.map fun x => (x.1, x.2.slot)).Nodup ∧
    ∀ x ∈ asked, x.2.slot.type ∈ c.types ∧ x.2.slot.group ∈ c.groups }

/-- The service as it is documented, over a queue. -/
def queueService (c : Constants) : Service (Queue c) where
  typeGroups q path :=
    some ((q.1.filter fun x => x.1 = path).map fun x => (x.2.slot.type, x.2.slot.group)).dedup
  check q path tg :=
    some ((q.1.filter fun x => x.1 = path ∧ (x.2.slot.type, x.2.slot.group) = tg).map fun x => x.2.slot.id).dedup
  fetch q path slot := (q.1.find? fun x => x.1 = path ∧ x.2.slot = slot).map fun x => x.2.name
  provide q path slot _ := some ⟨q.1.filter fun x => ¬(x.1 = path ∧ x.2.slot = slot),
    q.2.1.sublist (List.filter_sublist.map _), fun x hx => q.2.2 x (List.mem_of_mem_filter hx)⟩
  setDco q _ _ := some q
  ready q path := q.1.all fun x => x.1 ≠ path

def required {c : Constants} (q : Queue c) (path : String) (ask : Ask) : Prop := (path, ask) ∈ q.1

theorem lawful_queue (c : Constants) : Lawful (queueService c) required where
  distinct {q path a b} ha hb hslot :=
    congrArg Prod.snd (List.inj_on_of_nodup_map q.2.1 ha hb (congrArg (Prod.mk path) hslot))
  typeGroups {q path groups} h := by
    obtain rfl := Option.some.inj h
    refine ⟨List.nodup_dedup _, fun t g => ?_⟩
    simp only [List.mem_dedup, List.mem_map, List.mem_filter, decide_eq_true_eq, Prod.mk.injEq]
    constructor
    · rintro ⟨⟨path, ⟨⟨t, g, i⟩, name⟩⟩, ⟨hx, rfl⟩, rfl, rfl⟩
      exact ⟨i, name, hx⟩
    · rintro ⟨i, name, hx⟩
      exact ⟨_, ⟨hx, rfl⟩, rfl, rfl⟩
  check {q path t g ids} h := by
    obtain rfl := Option.some.inj h
    refine ⟨List.nodup_dedup _, fun i => ?_⟩
    simp only [List.mem_dedup, List.mem_map, List.mem_filter, decide_eq_true_eq, Prod.mk.injEq]
    constructor
    · rintro ⟨⟨path, ⟨⟨t, g, i⟩, name⟩⟩, ⟨hx, rfl, rfl, rfl⟩, rfl⟩
      exact ⟨name, hx⟩
    · rintro ⟨name, hx⟩
      exact ⟨_, ⟨hx, rfl, rfl, rfl⟩, rfl⟩
  fetch {q path slot name} h := by
    obtain ⟨⟨other, ask⟩, hx, rfl⟩ := Option.map_eq_some_iff.mp h
    have hmem := List.mem_of_find?_eq_some hx
    have hp := List.find?_some hx
    simp only [decide_eq_true_eq] at hp
    obtain ⟨rfl, rfl⟩ := hp
    exact hmem
  provide {q t path slot text} h other ask := by
    obtain rfl := Option.some.inj h
    simp only [required, List.mem_filter, decide_eq_true_eq, not_and]
  setDco {q t path on} h other ask := by
    obtain rfl := Option.some.inj h
    exact Iff.rfl
  ready {q path} h ask hask := by
    have hne := List.all_eq_true.mp h _ hask
    simp at hne

def challenge (c : Constants) : Ask := ⟨⟨c.credentials, c.challengeStatic, 0⟩, "static_challenge"⟩

def plain : Constants where
  majors := [1]
  minors := [1]
  types := [1]
  groups := [1, 4]
  credentials := 1
  challengeStatic := 4

def threeInputs : Queue plain :=
  ⟨[("/session", ⟨⟨1, 1, 0⟩, "username"⟩), ("/session", ⟨⟨1, 1, 1⟩, "password"⟩), ("/session", challenge plain)],
    by decide⟩

def nothingAsked : Queue plain := ⟨[], by decide⟩

def idle : Desk (Queue plain) where
  backend := {}
  page := { authUser := "user", session := some "pw" }
  dco := false
  service := nothingAsked

def prepared : List (Action (Queue plain)) :=
  [.call .startWatch, .call (.connect { importConfig := some "/config", prepareTunnel := some "/session" }),
    .others threeInputs]

theorem signals_proper_prepared :
    AllSteps (step plain (queueService plain))
      (fun d a => ∀ t, step plain (queueService plain) d a = some t → Proper plain (queueService plain) required d a t) idle
      (prepared ++ [.attentionRequired 1 1 1 fun _ => .raises, .submit 0 ["1", "2"]]) :=
  signals_proper (lawful_queue plain) idle _

end EovpnPro.Attention
