import EovpnPro.AutoConnect
import EovpnPro.SessionSubscriptions
import EovpnPro.SourceHandles

namespace EovpnPro.WindowClose

open AutoConnect Runs SourceHandles Sources Subscriptions OpenVpn3Watch
open OpenVpn3Backend (OpenVpn3 Topic)
open SessionSubscriptions (dialled dials mem_foldl_unsubscribe)

inductive Callback
  | tick
  | other
  deriving DecidableEq, Repr

def kind : Callback → Option Unit
  | .tick => some ()
  | .other => none

/-- The NetworkManager backend with its `NMDbus`, absent without the D-Bus binding. -/
structure NetworkManager where
  dbus : Bool
  bus : Bus Unit := {}
  watch : Bool := false
  connId : Option Nat := none

/-- A backend with its subscriptions, of which no other backend knows the identifiers. -/
inductive Manager
  | networkManager (m : NetworkManager)
  | openVpn3 (b : OpenVpn3)

/-- What the window holds on to: the byte arrays that passwords were kept in and the one
that is current, the sources of the main loop and the network monitor's handle, and the
backends that were made, the one in use first. For the statements, the password that was
set last, and the sources that are not the monitor's. -/
structure Desk where
  heap : List ByteArray := []
  secret : Option Nat := none
  sched : Scheduler Callback := {}
  monitor : Option (Option Nat) := none
  managers : List Manager := []
  last : Option String := none

def zero (buffer : ByteArray) : ByteArray := ⟨Array.replicate buffer.size 0⟩

/-- `secret[:] = b"\x00" * len(secret)` -/
def overwrite (d : Desk) (i : Nat) : Desk := { d with heap := d.heap.modify i zero }

def wipeSessionPassword (d : Desk) : Desk :=
  match d.secret with
  | some i => overwrite { d with secret := none } i
  | none => d

def setSessionPassword (d : Desk) (password : Option String) : Desk :=
  match password with
  | none => { wipeSessionPassword d with last := none }
  | some password =>
      if password = "" then { wipeSessionPassword d with last := none }
      else
        let d := (d.secret.map (overwrite d)).getD d
        { d with heap := d.heap ++ [password.toUTF8], secret := some d.heap.length, last := some password }

/-- Every buffer holds a text, of which nothing is left out when it is decoded. -/
def getSessionPassword (d : Desk) : Option String :=
  (d.secret.bind fun i => d.heap[i]?).map fun buffer => (String.fromUTF8? buffer).getD ""

/-- `NetworkMonitor.stop` -/
def stopMonitor (d : Desk) : Desk :=
  match d.monitor.join with
  | some id => { d with sched := remove d.sched id, monitor := some none }
  | none => d

def stopNetworkMonitor (d : Desk) : Desk := if d.monitor.isSome then stopMonitor d else d

/-- The monitor is made the first time; `NetworkMonitor.start` stops it first. -/
def startNetworkMonitor (d : Desk) (now : Nat) : Desk :=
  let d := stopMonitor { d with monitor := some d.monitor.join }
  { d with sched := add d.sched now second .tick, monitor := some (some d.sched.fresh) }

/-- `NMDbus.remove_watch` -/
def removeWatch (m : NetworkManager) : NetworkManager :=
  match m.connId with
  | some id => { m with bus := unsubscribe m.bus id, connId := none }
  | none => m

def Manager.stopWatch : Manager → Manager
  | networkManager m => networkManager (if m.watch && m.dbus then { removeWatch m with watch := false } else m)
  | openVpn3 b => openVpn3 (OpenVpn3Backend.stopWatch b)

/-- `start_watch`, which for NetworkManager raises when there is no system bus. -/
def Manager.startWatch (raises : Bool) : Manager → Manager
  | networkManager m => networkManager (
      if !m.watch && m.dbus && !raises then
        { m with bus := subscribe m.bus (), watch := true, connId := some m.bus.fresh }
      else m)
  | openVpn3 b => openVpn3 (OpenVpn3Backend.startWatch b)

def stopWatch (d : Desk) : Desk := { d with managers := d.managers.modifyHead Manager.stopWatch }

def startWatch (d : Desk) (raises : Bool) : Desk :=
  { d with managers := d.managers.modifyHead (Manager.startWatch raises) }

/-- What can be made, with whether there is a D-Bus binding, or the service's constants. -/
inductive Choice
  | networkManager (dbus : Bool)
  | openVpn3 (constants : Bool)

def create : Choice → Manager
  | .networkManager dbus => .networkManager { dbus }
  | .openVpn3 constants => .openVpn3 { constants }

/-- `on_backend_selected`: the old watch is stopped, and the new backend, if it could be
made, takes its place. -/
def onBackendSelected (d : Desk) (created : Option Choice) : Desk :=
  let d := stopWatch d
  match created with
  | some choice => { d with managers := create choice :: d.managers }
  | none => d

/-- A call into an OpenVPN 3 backend that was made, in use or not, a signal that it hears,
or a code that a dialog of it brings. -/
def listen (d : Desk) (i : Nat) (action : OpenVpn3Backend.Action) : Option Desk :=
  match action, d.managers[i]? with
  | .startWatch, _ | .stopWatch, _ => none
  | action, some (.openVpn3 b) =>
      (OpenVpn3Backend.step b action).map fun b => { d with managers := d.managers.set i (.openVpn3 b) }
  | _, _ => none

def onWindowClose (d : Desk) : Desk := setSessionPassword (stopWatch (stopNetworkMonitor d)) none

/-- A source of another part that has been dispatched goes, or waits again. -/
inductive Action
  | setSessionPassword (password : Option String)
  | startNetworkMonitor (now : Nat)
  | stopNetworkMonitor
  | tick (id now : Nat)
  | addOther (now interval : Nat)
  | dispatched (id now : Nat) (again : Bool)
  | startWatch (raises : Bool)
  | onBackendSelected (created : Option Choice)
  | listen (i : Nat) (action : OpenVpn3Backend.Action)
  | close

def registered (d : Desk) (id : Nat) (callback : Callback) : Bool :=
  d.sched.sources.any fun s => decide (s.id = id ∧ s.callback = callback)

/-- A tick returns true, whatever reading the counters raises. -/
def step (d : Desk) : Action → Option Desk
  | .setSessionPassword password => some (setSessionPassword d password)
  | .startNetworkMonitor now => some (startNetworkMonitor d now)
  | .stopNetworkMonitor => some (stopNetworkMonitor d)
  | .tick id now => if registered d id .tick then some { d with sched := rearm d.sched id now } else none
  | .addOther now interval => some { d with sched := add d.sched now interval .other }
  | .dispatched id now again =>
      if registered d id .other then
        some { d with sched := if again then rearm d.sched id now else remove d.sched id }
      else none
  | .startWatch raises => some (startWatch d raises)
  | .onBackendSelected created => some (onBackendSelected d created)
  | .listen i action => listen d i action
  | .close => some (onWindowClose d)

def Zeroed (buffer : ByteArray) : Prop := ∀ x ∈ buffer.data, x = 0

def running (d : Desk) : Bool := d.monitor.join.isSome

/-- The password that was set last is what is read, and every other one that was ever set
is overwritten. There is one tick source while the monitor runs, and none otherwise. -/
structure Clean (d : Desk) : Prop where
  password : getSessionPassword d = d.last
  scrubbed : ∀ i buffer, d.heap[i]? = some buffer → d.secret ≠ some i → Zeroed buffer
  ticks : (d.sched.sources.filter fun s => s.callback = .tick).length = if running d then 1 else 0

/-- What is left when a window is closed: the sources of others. -/
structure Released (d t : Desk) : Prop where
  secrets : ∀ buffer ∈ t.heap, Zeroed buffer
  forgotten : getSessionPassword t = none
  sources : t.sched.sources = d.sched.sources.filter fun s => s.callback = .other

def Manager.live : Manager → List Nat
  | networkManager m => m.bus.live.map Prod.fst
  | openVpn3 b => b.bus.live.map Prod.fst

def Manager.watching : Manager → Bool
  | networkManager m => m.watch
  | openVpn3 b => b.watch

def statuses (b : OpenVpn3) : List Nat := (b.bus.live.filter fun s => s.2.isStatus).map Prod.fst

def attentions (b : OpenVpn3) : List Nat := (b.bus.live.filter fun s => !s.2.isStatus).map Prod.fst

/-- While the watch runs NetworkManager has its one subscription, and OpenVPN 3 one for
attention at most and one at most for each dial. There is none otherwise. -/
def Accounted : Manager → Prop
  | .networkManager m => m.bus.live.length = if m.watch then 1 else 0
  | .openVpn3 b => if b.watch then (attentions b).length ≤ 1 ∧ (statuses b).length ≤ (dialled b.calls).length
      else b.bus.live = []

/-- Only the backend in use is subscribed to anything, and it lets go when the window is
closed. -/
structure Wired (d : Desk) : Prop where
  accounted : ∀ m ∈ d.managers, Accounted m
  replaced : ∀ m ∈ d.managers.tail, m.live = []
  released : ∀ m ∈ (onWindowClose d).managers, m.live = []

/-- No code that dials comes from a dialog of a backend whose watch is stopped. -/
def Orderly (d : Desk) : Action → Prop
  | .listen i (.otp answered ready) => ∀ b, d.managers[i]? = some (.openVpn3 b) → b.watch = false →
      dials b (.otp answered ready) = none
  | _ => True

def held (d : Desk) : Held Callback Unit := ⟨d.sched, fun _ => d.monitor.join⟩

structure Secrets (d : Desk) : Prop where
  current : ∀ i, d.secret = some i → ∃ password, d.heap[i]? = some password.toUTF8 ∧ d.last = some password
  cleared : d.secret = none → d.last = none
  scrubbed : ∀ i buffer, d.heap[i]? = some buffer → d.secret ≠ some i → Zeroed buffer

structure Ticking (d : Desk) : Prop where
  sound : Sound kind (held d)
  owned : Owned kind none (held d)
  registered : ∀ id, d.monitor.join = some id → ∃ s ∈ d.sched.sources, s.id = id ∧ s.callback = .tick

structure Watched (m : NetworkManager) : Prop where
  live : m.bus.live.map Prod.fst = m.connId.toList
  watch : m.watch = m.connId.isSome
  dbus : m.watch = true → m.dbus = true

structure Listening (b : OpenVpn3) : Prop where
  attention : attentions b = b.attentionSubscription.toList
  statuses : statuses b = b.subscriptions
  bounded : b.subscriptions.length ≤ (dialled b.calls).length
  idle : b.watch = false → b.bus.live = []

def Held : Manager → Prop
  | .networkManager m => Watched m
  | .openVpn3 b => Listening b

structure Holding (d : Desk) : Prop where
  held : ∀ m ∈ d.managers, Held m
  stopped : ∀ m ∈ d.managers.tail, m.watching = false

variable {d t : Desk}

theorem zeroed_zero (buffer : ByteArray) : Zeroed (zero buffer) := by
  intro x hx
  exact (Array.mem_replicate.mp hx).2

theorem fromUTF8?_toUTF8 (s : String) : String.fromUTF8? s.toUTF8 = some s := by
  rw [String.toUTF8_eq_toByteArray, String.fromUTF8?, dif_pos s.isValidUTF8]
  rfl

theorem Secrets.overwritten (h : Secrets d) {i : Nat} (hs : d.secret = some i) :
    ∀ (j : Nat) (buffer : ByteArray), (overwrite d i).heap[j]? = some buffer → Zeroed buffer := by
  intro j buffer hj
  simp only [overwrite, List.getElem?_modify] at hj
  obtain ⟨old, hold, rfl⟩ := Option.map_eq_some_iff.mp hj
  split_ifs with hij
  · exact zeroed_zero old
  · exact h.scrubbed j old hold fun he => hij (Option.some.inj (hs.symm.trans he))

theorem Secrets.wiped (h : Secrets d) : Secrets { wipeSessionPassword d with last := none } := by
  simp only [wipeSessionPassword]
  cases hs : d.secret with
  | none => exact ⟨(fun i hi => by rw [hs] at hi; cases hi), fun _ => rfl, h.scrubbed⟩
  | some i => exact ⟨(fun _ hi => by cases hi), fun _ => rfl, fun j buffer hj _ => h.overwritten hs j buffer hj⟩

theorem Secrets.set (h : Secrets d) (password : Option String) : Secrets (setSessionPassword d password) := by
  cases password with
  | none => exact h.wiped
  | some password =>
      simp only [setSessionPassword]
      split_ifs
      · exact h.wiped
      · have hold : ∀ (j : Nat) (buffer : ByteArray),
            ((d.secret.map (overwrite d)).getD d).heap[j]? = some buffer → Zeroed buffer := by
          cases hs : d.secret with
          | none => exact fun j buffer hj => h.scrubbed j buffer hj fun he => by rw [hs] at he; cases he
          | some i => exact h.overwritten hs
        refine ⟨?_, (fun hn => by cases hn), fun j buffer hj hne => ?_⟩
        · intro i hi
          obtain rfl := Option.some.inj hi
          exact ⟨password, by simp, rfl⟩
        · obtain hlt | hge := Nat.lt_or_ge j ((d.secret.map (overwrite d)).getD d).heap.length
          · rw [List.getElem?_append_left hlt] at hj
            exact hold j buffer hj
          · obtain ⟨hjlt, -⟩ := List.getElem?_eq_some_iff.mp hj
            rw [List.length_append, List.length_singleton] at hjlt
            exact absurd (congrArg some (Nat.le_antisymm hge (Nat.le_of_lt_succ hjlt))) hne

theorem Secrets.password (h : Secrets d) : getSessionPassword d = d.last := by
  rw [getSessionPassword]
  cases hs : d.secret with
  | none => exact (h.cleared hs).symm
  | some i =>
      obtain ⟨password, hi, hlast⟩ := h.current i hs
      rw [Option.bind_some, hi, Option.map_some, fromUTF8?_toUTF8, hlast]
      rfl

theorem held_stopMonitor (d : Desk) : held (stopMonitor d) = release (held d) () := by
  simp only [stopMonitor]
  cases hm : d.monitor.join with
  | none =>
      simp only [held, release, hm, Option.elim_none, Held.mk.injEq, true_and]
      exact (Function.update_eq_self_iff.mpr rfl).symm
  | some id =>
      simp only [held, release, hm, Option.elim_some, Held.mk.injEq, true_and]
      funext u
      simp

theorem Ticking.stopped (h : Ticking d) : Ticking (stopMonitor d) ∧ (stopMonitor d).monitor.join = none := by
  have hk : Keeps kind (held d) (release (held d) ()) := keeps_release (held d) ()
  rw [← held_stopMonitor] at hk
  have hnone : (stopMonitor d).monitor.join = none := by
    simp only [stopMonitor]
    cases hm : d.monitor.join with
    | none => exact hm
    | some id => rfl
  refine ⟨⟨hk.sound h.sound, hk.owned none h.owned, fun id hid => ?_⟩, hnone⟩
  rw [hnone] at hid
  cases hid

theorem Ticking.of_eq (h : Ticking d) (hs : t.sched = d.sched) (hm : t.monitor.join = d.monitor.join) : Ticking t := by
  have he : held t = held d := by rw [held, held, hs, hm]
  exact ⟨he ▸ h.sound, he ▸ h.owned, hs ▸ hm ▸ h.registered⟩

theorem Ticking.started (h : Ticking d) (now : Nat) : Ticking (startNetworkMonitor d now) := by
  obtain ⟨hs, hnone⟩ := (h.of_eq (t := { d with monitor := some d.monitor.join }) rfl (by cases d.monitor <;> rfl)).stopped
  have hk : Keeps kind (held (stopMonitor { d with monitor := some d.monitor.join }))
      (register (held (stopMonitor { d with monitor := some d.monitor.join })) () now second .tick) :=
    keeps_register hnone now second rfl
  have he : held (startNetworkMonitor d now) =
      register (held (stopMonitor { d with monitor := some d.monitor.join })) () now second .tick := by
    simp only [startNetworkMonitor, held, register, Held.mk.injEq, true_and]
    funext u
    simp
  refine ⟨he ▸ hk.sound hs.sound, he ▸ hk.owned none hs.owned, ?_⟩
  intro id hid
  obtain rfl := Option.some.inj hid
  exact ⟨_, List.mem_append_right _ (List.mem_singleton_self _), rfl, rfl⟩

theorem Ticking.rearmed (h : Ticking d) (id now : Nat) : Ticking { d with sched := rearm d.sched id now } := by
  have hk : Keeps kind (held d) { held d with sched := rearm d.sched id now } := keeps_rearm (held d) id now
  refine ⟨hk.sound h.sound, hk.owned none h.owned, fun other ho => ?_⟩
  obtain ⟨s, hs, rfl, hc⟩ := h.registered other ho
  refine ⟨_, List.mem_map_of_mem hs, ?_⟩
  split <;> exact ⟨rfl, hc⟩

theorem Ticking.added (h : Ticking d) (now interval : Nat) :
    Ticking { d with sched := add d.sched now interval .other } := by
  have hk : Keeps kind (held d) { held d with sched := add d.sched now interval .other } :=
    keeps_add (held d) now interval rfl
  refine ⟨hk.sound h.sound, hk.owned none h.owned, fun other ho => ?_⟩
  obtain ⟨s, hs, hrest⟩ := h.registered other ho
  exact ⟨s, List.mem_append_left _ hs, hrest⟩

theorem Ticking.dropped (h : Ticking d) {id : Nat} (hr : WindowClose.registered d id .other = true) :
    Ticking { d with sched := remove d.sched id } := by
  obtain ⟨r, hmem, hid⟩ := List.any_eq_true.mp hr
  obtain ⟨rfl, hc⟩ := of_decide_eq_true hid
  refine ⟨sound_drop h.sound r.id, h.owned.drop r.id, fun other ho => ?_⟩
  obtain ⟨s, hs, rfl, hs'⟩ := h.registered other ho
  refine ⟨s, List.mem_filter.mpr ⟨hs, decide_eq_true fun he => ?_⟩, rfl, hs'⟩
  have hsame := List.inj_on_of_nodup_map h.sound.distinct hs hmem he
  rw [hsame, hc] at hs'
  cases hs'

theorem Ticking.ticks (h : Ticking d) :
    (d.sched.sources.filter fun s => s.callback = .tick).length = if running d then 1 else 0 := by
  have hfilter : (d.sched.sources.filter fun s => s.callback = .tick) =
      d.sched.sources.filter fun s => decide (kind s.callback = some ()) := by
    refine List.filter_congr fun s _ => ?_
    cases s.callback <;> rfl
  have hone := (congrArg List.length hfilter).trans_le (length_le_one_of_owned h.sound h.owned ())
  rw [running]
  cases hm : d.monitor.join with
  | none =>
      refine List.length_eq_zero_iff.mpr (List.eq_nil_iff_forall_not_mem.mpr fun s hs => ?_)
      obtain ⟨hs, hc⟩ := List.mem_filter.mp hs
      have hi := h.owned s hs (Option.some_ne_none _) () (by rw [of_decide_eq_true hc]; rfl)
      rw [held, hm] at hi
      cases hi
  | some id =>
      obtain ⟨s, hs, -, hc⟩ := h.registered id hm
      exact Nat.le_antisymm hone (List.length_pos_of_mem (List.mem_filter.mpr ⟨hs, decide_eq_true hc⟩))

section Listener

variable {b c : OpenVpn3}

def ties (b : OpenVpn3) : Bus Topic × Option Nat × List Nat × List String × Bool :=
  (b.bus, b.attentionSubscription, b.subscriptions, dialled b.calls, b.watch)

theorem blind_ties : Blind ties := by
  refine ⟨fun b call hc => ?_, fun _ _ => rfl, fun _ _ => rfl⟩
  cases call with
  | connectVpn path => exact absurd rfl (hc path)
  | importConfig | prepareTunnel | disconnectVpn | callback | raised => rfl

theorem watch_of_ties (hc : ties c = ties b) : c.watch = b.watch := by
  simp only [ties, Prod.mk.injEq] at hc
  exact hc.2.2.2.2

theorem Listening.of_ties (h : Listening b) (hc : ties c = ties b) : Listening c := by
  simp only [ties, Prod.mk.injEq] at hc
  obtain ⟨hb, ha, hs, hd, hw⟩ := hc
  refine ⟨?_, ?_, ?_, ?_⟩
  · rw [attentions, hb, ha]; exact h.attention
  · rw [WindowClose.statuses, hb, hs]; exact h.statuses
  · rw [hs, hd]; exact h.bounded
  · rw [hw, hb]; exact h.idle

theorem Listening.empty (hb : b.bus.live = []) (ha : b.attentionSubscription = none) (hs : b.subscriptions = []) :
    Listening b where
  attention := by rw [attentions, hb, ha]; rfl
  statuses := by rw [WindowClose.statuses, hb, hs]; rfl
  bounded := hs ▸ Nat.zero_le _
  idle _ := hb

theorem Listening.live_unsubscribeAll (h : Listening b) : (OpenVpn3Backend.unsubscribeAll b).bus.live = [] := by
  refine List.eq_nil_iff_forall_not_mem.mpr fun s hs => ?_
  obtain ⟨hm, hn⟩ := mem_foldl_unsubscribe.mp hs
  rw [List.mem_append, ← h.attention, ← h.statuses, not_or] at hn
  cases hk : s.2.isStatus with
  | true => exact hn.2 (List.mem_map_of_mem (List.mem_filter.mpr ⟨hm, hk⟩))
  | false => exact hn.1 (List.mem_map_of_mem (List.mem_filter.mpr ⟨hm, by rw [hk]; rfl⟩))

theorem Listening.unsubscribed (h : Listening b) : Listening (OpenVpn3Backend.unsubscribeAll b) :=
  .empty h.live_unsubscribeAll rfl rfl

theorem Listening.stopped (h : Listening b) :
    (OpenVpn3Backend.stopWatch b).watch = false ∧ Listening (OpenVpn3Backend.stopWatch b) := by
  simp only [OpenVpn3Backend.stopWatch]
  split_ifs with hw
  · exact ⟨rfl, .empty h.live_unsubscribeAll rfl rfl⟩
  · exact ⟨Bool.eq_false_iff.mpr hw, h⟩

theorem Listening.started (h : Listening b) : Listening (OpenVpn3Backend.startWatch b) := by
  simp only [OpenVpn3Backend.startWatch, OpenVpn3Backend.subscribeForAttention]
  split_ifs with hw ha
  · exact h
  · exact ⟨h.attention, h.statuses, h.bounded, fun hf => by cases hf⟩
  · have ha : b.attentionSubscription = none := Option.not_isSome_iff_eq_none.mp ha
    have hattention := h.attention
    have hstatuses := h.statuses
    simp only [attentions, WindowClose.statuses, ha] at hattention hstatuses
    refine ⟨?_, ?_, h.bounded, fun hf => by cases hf⟩
    · simp only [attentions, subscribe, List.filter_append, List.map_append, hattention]
      rfl
    · simp only [WindowClose.statuses, subscribe, List.filter_append, List.map_append, hstatuses]
      exact List.append_nil _

theorem Listening.dialled (h : Listening b) (hw : b.watch = true) (path : String) :
    Listening (OpenVpn3Backend.record (OpenVpn3Backend.subscribeForEvents b path) (.connectVpn path)) := by
  have hattention := h.attention
  have hstatuses := h.statuses
  simp only [attentions, WindowClose.statuses] at hattention hstatuses
  refine ⟨?_, ?_, ?_, fun hf => by cases hw.symm.trans hf⟩
  · simp only [attentions, OpenVpn3Backend.record, OpenVpn3Backend.subscribeForEvents, subscribe, List.filter_append,
      List.map_append, hattention]
    exact List.append_nil _
  · simp only [WindowClose.statuses, OpenVpn3Backend.record, OpenVpn3Backend.subscribeForEvents, subscribe,
      List.filter_append, List.map_append, hstatuses]
    rfl
  · simpa [OpenVpn3Backend.record, OpenVpn3Backend.subscribeForEvents, SessionSubscriptions.dialled] using h.bounded

theorem tryToConnect_cases (b : OpenVpn3) (ready : Bool) : OpenVpn3Backend.tryToConnect b ready = b ∨
    ∃ path, b.sessionPath = some path ∧ b.module = true ∧ ready = true ∧ OpenVpn3Backend.tryToConnect b ready =
      OpenVpn3Backend.record (OpenVpn3Backend.subscribeForEvents b path) (.connectVpn path) := by
  simp only [OpenVpn3Backend.tryToConnect]
  cases hs : b.sessionPath with
  | none => exact .inl rfl
  | some path =>
      dsimp only
      split_ifs with hr
      · obtain ⟨hm, hr⟩ := Bool.and_eq_true_iff.mp hr
        exact .inr ⟨path, rfl, hm, hr, rfl⟩
      · exact .inl rfl

theorem Listening.tried (h : Listening b) (hw : b.watch = true) (ready : Bool) :
    Listening (OpenVpn3Backend.tryToConnect b ready) := by
  obtain he | ⟨path, -, -, -, he⟩ := tryToConnect_cases b ready
  · rwa [he]
  · rw [he]
    exact h.dialled hw path

theorem watch_tryToConnect (b : OpenVpn3) (ready : Bool) : (OpenVpn3Backend.tryToConnect b ready).watch = b.watch := by
  obtain he | ⟨path, -, -, -, he⟩ := tryToConnect_cases b ready <;> rw [he]
  rfl

theorem watch_step {action : OpenVpn3Backend.Action} (hc : OpenVpn3Backend.step b action = some c)
    (h : action ≠ .startWatch ∧ action ≠ .stopWatch) : c.watch = b.watch := by
  cases action with
  | startWatch => exact absurd rfl h.1
  | stopWatch => exact absurd rfl h.2
  | connect e =>
      obtain rfl := Option.some.inj hc
      exact watch_of_ties (blind_ties.connect b e)
  | disconnect again =>
      obtain rfl := Option.some.inj hc
      exact watch_of_ties (blind_ties.disconnect b again)
  | attentionRequired id answered ready =>
      simp only [OpenVpn3Backend.step, OpenVpn3Backend.subAttentionSignal] at hc
      split_ifs at hc <;> obtain rfl := Option.some.inj hc
      · exact watch_tryToConnect b ready
      · rfl
  | otp answered ready =>
      simp only [OpenVpn3Backend.step] at hc
      split_ifs at hc <;> obtain rfl := Option.some.inj hc
      · exact watch_tryToConnect b ready
      · rfl
  | statusChange id status reason again =>
      simp only [OpenVpn3Backend.step] at hc
      split_ifs at hc
      obtain rfl := Option.some.inj hc
      have hs := blind_ties.subStatusSignal b status reason again
      split_ifs at hs
      · exact watch_of_ties (b := OpenVpn3Backend.unsubscribeAll b) hs
      · exact watch_of_ties hs

theorem Listening.step {action : OpenVpn3Backend.Action} (h : Listening b) (hc : OpenVpn3Backend.step b action = some c)
    (hdial : b.watch = false → ∀ answered ready, action = .otp answered ready → dials b action = none) : Listening c := by
  cases action with
  | startWatch =>
      obtain rfl := Option.some.inj hc
      exact h.started
  | stopWatch =>
      obtain rfl := Option.some.inj hc
      exact h.stopped.2
  | connect e =>
      obtain rfl := Option.some.inj hc
      exact h.of_ties (blind_ties.connect b e)
  | disconnect again =>
      obtain rfl := Option.some.inj hc
      exact h.of_ties (blind_ties.disconnect b again)
  | attentionRequired id answered ready =>
      simp only [OpenVpn3Backend.step, OpenVpn3Backend.subAttentionSignal] at hc
      split_ifs at hc with hlive <;> obtain rfl := Option.some.inj hc
      · -- a signal is only heard by a watch that runs
        refine h.tried (Bool.not_eq_false _ ▸ fun hw => ?_) ready
        rw [h.idle hw] at hlive
        cases hlive
      · exact h
  | otp answered ready =>
      simp only [OpenVpn3Backend.step] at hc
      split_ifs at hc with hanswered <;> obtain rfl := Option.some.inj hc
      · obtain he | ⟨path, hs, hm, hr, he⟩ := tryToConnect_cases b ready
        · rwa [he]
        · rw [he]
          refine h.dialled (Bool.not_eq_false _ ▸ fun hw => ?_) path
          obtain ⟨hk, ha⟩ := Bool.and_eq_true_iff.mp hanswered
          have hnone := hdial hw answered ready rfl
          simp only [dials, hk, hm, ha, hr, hs, Bool.and_self, if_true] at hnone
          cases hnone
      · exact h
  | statusChange id status reason again =>
      simp only [OpenVpn3Backend.step] at hc
      split_ifs at hc
      obtain rfl := Option.some.inj hc
      have hs := blind_ties.subStatusSignal b status reason again
      split_ifs at hs
      · exact h.unsubscribed.of_ties hs
      · exact h.of_ties hs

end Listener

theorem Watched.stopped {m : NetworkManager} (h : Watched m) :
    (Manager.networkManager m).stopWatch.watching = false ∧ Held (Manager.networkManager m).stopWatch := by
  simp only [Manager.stopWatch, Manager.watching, Held]
  cases hc : m.connId with
  | none =>
      have hw : m.watch = false := by rw [h.watch, hc]; rfl
      simp only [hw, Bool.false_and, Bool.false_eq_true, if_false]
      exact ⟨trivial, h⟩
  | some id =>
      have hw : m.watch = true := by rw [h.watch, hc]; rfl
      have hlive := h.live
      rw [hc, Option.toList_some, List.map_eq_singleton_iff] at hlive
      obtain ⟨x, hx, rfl⟩ := hlive
      simp only [hw, h.dbus hw, Bool.and_self, if_true, removeWatch, hc, true_and]
      refine ⟨?_, rfl, fun hf => by cases hf⟩
      simp [unsubscribe, hx]

theorem Watched.started {m : NetworkManager} (h : Watched m) (raises : Bool) :
    Held ((Manager.networkManager m).startWatch raises) := by
  simp only [Manager.startWatch, Held]
  split_ifs with hs
  · simp only [Bool.and_eq_true, Bool.not_eq_true'] at hs
    have hlive := h.live
    have hnone : m.connId.isSome = false := h.watch.symm.trans hs.1.1
    rw [Option.isNone_iff_eq_none.mp (Option.isSome_eq_false_iff.mp hnone), Option.toList_none, List.map_eq_nil_iff] at hlive
    refine ⟨?_, rfl, fun _ => hs.1.2⟩
    simp [subscribe, hlive]
  · exact h

section Managers

variable {m : Manager}

theorem Held.stopped (h : Held m) : m.stopWatch.watching = false ∧ Held m.stopWatch := by
  cases m with
  | networkManager m => exact Watched.stopped h
  | openVpn3 b => exact Listening.stopped h

theorem Held.started (h : Held m) (raises : Bool) : Held (m.startWatch raises) := by
  cases m with
  | networkManager m => exact Watched.started h raises
  | openVpn3 b => exact Listening.started h

theorem Held.idle (h : Held m) (hw : m.watching = false) : m.live = [] := by
  cases m with
  | networkManager m =>
      have hnone : m.connId.isSome = false := (Watched.watch h).symm.trans hw
      rw [Manager.live, Watched.live h, Option.isNone_iff_eq_none.mp (Option.isSome_eq_false_iff.mp hnone)]
      rfl
  | openVpn3 b => rw [Manager.live, Listening.idle h hw, List.map_nil]

theorem Held.accounted (h : Held m) : Accounted m := by
  cases m with
  | networkManager m =>
      have hlive := congrArg List.length (Watched.live h)
      rw [List.length_map] at hlive
      rw [Accounted, hlive, Watched.watch h]
      cases m.connId <;> rfl
  | openVpn3 b =>
      simp only [Accounted]
      split_ifs with hw
      · rw [Listening.attention h, Listening.statuses h]
        refine ⟨?_, Listening.bounded h⟩
        cases b.attentionSubscription with
        | none => exact Nat.zero_le _
        | some id => exact Nat.le_refl _
      · exact Listening.idle h (Bool.eq_false_iff.mpr hw)

theorem held_create (choice : Choice) : Held (create choice) ∧ (create choice).watching = false := by
  cases choice with
  | networkManager dbus => exact ⟨⟨rfl, rfl, fun hf => by cases hf⟩, rfl⟩
  | openVpn3 constants => exact ⟨.empty rfl rfl rfl, rfl⟩

end Managers

theorem managers_set (d : Desk) (password : Option String) : (setSessionPassword d password).managers = d.managers := by
  cases password with
  | none =>
      simp only [setSessionPassword, wipeSessionPassword]
      cases d.secret <;> rfl
  | some password =>
      simp only [setSessionPassword, wipeSessionPassword]
      split_ifs <;> cases d.secret <;> rfl

theorem managers_stopMonitor (d : Desk) : (stopMonitor d).managers = d.managers := by
  simp only [stopMonitor]
  split <;> rfl

theorem managers_stopNetworkMonitor (d : Desk) : (stopNetworkMonitor d).managers = d.managers := by
  rw [stopNetworkMonitor]
  split_ifs
  · exact managers_stopMonitor d
  · rfl

theorem managers_close (d : Desk) : (onWindowClose d).managers = (stopWatch d).managers := by
  rw [onWindowClose, managers_set, stopWatch, managers_stopNetworkMonitor]
  rfl

theorem Holding.of_eq (h : Holding d) (hm : t.managers = d.managers) : Holding t := ⟨hm ▸ h.held, hm ▸ h.stopped⟩

theorem Holding.stoppedWatch (h : Holding d) :
    ∀ m ∈ (stopWatch d).managers, Held m ∧ m.watching = false := by
  obtain ⟨hheld, hstopped⟩ := h
  simp only [stopWatch]
  cases hd : d.managers with
  | nil => exact fun _ hm => by cases hm
  | cons m rest =>
      rw [hd] at hheld hstopped
      rw [List.modifyHead_cons]
      refine List.forall_mem_cons.mpr ⟨(hheld m List.mem_cons_self).stopped.symm, fun other ho => ?_⟩
      exact ⟨hheld other (List.mem_cons_of_mem m ho), hstopped other ho⟩

theorem Holding.wired (h : Holding d) : Wired d where
  accounted m hm := (h.held m hm).accounted
  replaced m hm := (h.held m (List.mem_of_mem_tail hm)).idle (h.stopped m hm)
  released m hm := by
    rw [managers_close] at hm
    obtain ⟨hheld, hw⟩ := h.stoppedWatch m hm
    exact hheld.idle hw

theorem listen_cases {i : Nat} {action : OpenVpn3Backend.Action} (h : listen d i action = some t) :
    ∃ b c, d.managers[i]? = some (.openVpn3 b) ∧ OpenVpn3Backend.step b action = some c ∧
      (action ≠ .startWatch ∧ action ≠ .stopWatch) ∧ t = { d with managers := d.managers.set i (.openVpn3 c) } := by
  simp only [listen] at h
  split at h
  · cases h
  · cases h
  · rename_i b hstart hstop hb
    obtain ⟨c, hc, rfl⟩ := Option.map_eq_some_iff.mp h
    exact ⟨b, c, hb, hc, ⟨hstart, hstop⟩, rfl⟩
  · cases h

theorem Holding.listened {i : Nat} {b c : OpenVpn3} (h : Holding d) (hb : d.managers[i]? = some (.openVpn3 b))
    (hc : Listening c) (hw : c.watch = b.watch) : Holding { d with managers := d.managers.set i (.openVpn3 c) } := by
  refine ⟨fun m hm => ?_, fun m hm => ?_⟩
  · obtain hm | rfl := List.mem_or_eq_of_mem_set hm
    · exact h.held m hm
    · exact hc
  · dsimp only at hm
    cases hd : d.managers with
    | nil =>
        rw [hd] at hm
        cases hm
    | cons first rest =>
        have hstopped := h.stopped
        rw [hd] at hm hstopped hb
        cases i with
        | zero => exact hstopped m hm
        | succ i =>
            obtain hm | rfl := List.mem_or_eq_of_mem_set hm
            · exact hstopped m hm
            · exact hw.trans (hstopped _ (List.mem_of_getElem? hb))

theorem step_holding {a : Action} (h : Holding d) (ht : step d a = some t) (hg : Orderly d a) : Holding t := by
  cases a with
  | setSessionPassword password => exact Option.some.inj ht ▸ h.of_eq (managers_set d password)
  | startNetworkMonitor now =>
      exact Option.some.inj ht ▸ h.of_eq (managers_stopMonitor { d with monitor := some d.monitor.join })
  | stopNetworkMonitor => exact Option.some.inj ht ▸ h.of_eq (managers_stopNetworkMonitor d)
  | addOther now interval => exact Option.some.inj ht ▸ h.of_eq rfl
  | tick id now | dispatched id now again =>
      simp only [WindowClose.step] at ht
      split at ht
      · obtain rfl := Option.some.inj ht
        exact h.of_eq rfl
      · cases ht
  | startWatch raises =>
      obtain rfl := Option.some.inj ht
      obtain ⟨hheld, hstopped⟩ := h
      cases hd : d.managers with
      | nil =>
          refine ⟨fun m hm => ?_, fun m hm => ?_⟩ <;> simp only [startWatch, hd] at hm <;> cases hm
      | cons m rest =>
          rw [hd] at hheld hstopped
          have hmanagers : (startWatch d raises).managers = m.startWatch raises :: rest := by
            simp only [startWatch, hd, List.modifyHead_cons]
          refine ⟨?_, ?_⟩
          · rw [hmanagers]
            exact List.forall_mem_cons.mpr ⟨(hheld m List.mem_cons_self).started raises,
              fun other ho => hheld other (List.mem_cons_of_mem m ho)⟩
          · rw [hmanagers]
            exact hstopped
  | onBackendSelected created =>
      obtain rfl := Option.some.inj ht
      have hs := h.stoppedWatch
      cases created with
      | none => exact ⟨fun m hm => (hs m hm).1, fun m hm => (hs m (List.mem_of_mem_tail hm)).2⟩
      | some choice =>
          exact ⟨List.forall_mem_cons.mpr ⟨(held_create choice).1, fun m hm => (hs m hm).1⟩, fun m hm => (hs m hm).2⟩
  | listen i action =>
      obtain ⟨b, c, hb, hc, hwatch, rfl⟩ := listen_cases ht
      refine h.listened hb ((h.held _ (List.mem_of_getElem? hb)).step hc ?_) (watch_step hc hwatch)
      rintro hw answered ready rfl
      exact hg b hb hw
  | close =>
      obtain rfl := Option.some.inj ht
      have hs := h.stoppedWatch
      rw [← managers_close] at hs
      exact ⟨fun m hm => (hs m hm).1, fun m hm => (hs m (List.mem_of_mem_tail hm)).2⟩

/-- A dial of a backend whose watch is stopped leaves a subscription that nothing ends. -/
theorem orderly_of_wired {a : Action} (ht : step d a = some t) (hw : Wired t) : Orderly d a := by
  cases a with
  | listen i action =>
      cases action with
      | otp answered ready =>
          intro b hb hwatch
          obtain ⟨other, c, hother, hc, -, rfl⟩ := listen_cases ht
          obtain rfl := Manager.openVpn3.inj (Option.some.inj (hb.symm.trans hother))
          by_contra hdial
          obtain ⟨path, hpath⟩ := Option.ne_none_iff_exists'.mp hdial
          simp only [dials] at hpath
          split_ifs at hpath with hall
          simp only [Bool.and_eq_true] at hall
          obtain ⟨⟨⟨hk, hm⟩, ha⟩, hr⟩ := hall
          simp only [OpenVpn3Backend.step, hk, ha, Bool.and_self, if_true, OpenVpn3Backend.tryToConnect, hpath, hm, hr]
            at hc
          obtain rfl := Option.some.inj hc
          have hacc := hw.accounted _ (List.mem_set (List.getElem?_eq_some_iff.mp hb).1 _)
          simp [Accounted, OpenVpn3Backend.record, OpenVpn3Backend.subscribeForEvents, subscribe, hwatch] at hacc
      | startWatch | stopWatch | connect | disconnect | attentionRequired | statusChange => trivial
  | setSessionPassword | startNetworkMonitor | stopNetworkMonitor | tick | addOther | dispatched | startWatch
  | onBackendSelected | close => trivial

structure Tidy (d : Desk) : Prop where
  secrets : Secrets d
  ticking : Ticking d

theorem Tidy.clean (h : Tidy d) : Clean d := ⟨h.secrets.password, h.secrets.scrubbed, h.ticking.ticks⟩

theorem Secrets.of_eq (h : Secrets d) (hh : t.heap = d.heap) (hs : t.secret = d.secret) (hl : t.last = d.last) :
    Secrets t :=
  ⟨hh ▸ hs ▸ hl ▸ h.current, hs ▸ hl ▸ h.cleared, hh ▸ hs ▸ h.scrubbed⟩

theorem Tidy.of_eq (h : Tidy d) (hh : t.heap = d.heap) (hs : t.secret = d.secret) (hl : t.last = d.last)
    (hsched : t.sched = d.sched) (hm : t.monitor = d.monitor) : Tidy t :=
  ⟨h.secrets.of_eq hh hs hl, h.ticking.of_eq hsched (by rw [hm])⟩

theorem rest_set (d : Desk) (password : Option String) :
    (setSessionPassword d password).sched = d.sched ∧ (setSessionPassword d password).monitor = d.monitor := by
  cases password with
  | none =>
      simp only [setSessionPassword, wipeSessionPassword]
      cases d.secret <;> exact ⟨rfl, rfl⟩
  | some password =>
      simp only [setSessionPassword, wipeSessionPassword]
      split_ifs <;> cases d.secret <;> exact ⟨rfl, rfl⟩

theorem rest_stopMonitor (d : Desk) : (stopMonitor d).heap = d.heap ∧ (stopMonitor d).secret = d.secret ∧
    (stopMonitor d).last = d.last := by
  simp only [stopMonitor]
  split <;> exact ⟨rfl, rfl, rfl⟩

theorem Tidy.set (h : Tidy d) (password : Option String) : Tidy (setSessionPassword d password) := by
  obtain ⟨hs, hm⟩ := rest_set d password
  exact ⟨h.secrets.set password, h.ticking.of_eq hs (by rw [hm])⟩

theorem stopNetworkMonitor_eq (d : Desk) : stopNetworkMonitor d = stopMonitor d := by
  rw [stopNetworkMonitor]
  split_ifs with hm
  · rfl
  · have hnone : d.monitor = none := by simpa using hm
    rw [stopMonitor, hnone]
    rfl

theorem Tidy.stoppedMonitor (h : Tidy d) : Tidy (stopNetworkMonitor d) := by
  rw [stopNetworkMonitor_eq]
  obtain ⟨hh, hs, hl⟩ := rest_stopMonitor d
  exact ⟨h.secrets.of_eq hh hs hl, h.ticking.stopped.1⟩

theorem Tidy.startedMonitor (h : Tidy d) (now : Nat) : Tidy (startNetworkMonitor d now) := by
  obtain ⟨hh, hs, hl⟩ := rest_stopMonitor { d with monitor := some d.monitor.join }
  exact ⟨h.secrets.of_eq hh hs hl, h.ticking.started now⟩

theorem Tidy.closed (h : Tidy d) : Tidy (onWindowClose d) :=
  (h.stoppedMonitor.of_eq (t := stopWatch (stopNetworkMonitor d)) rfl rfl rfl rfl rfl).set none

theorem Tidy.step {a : Action} (h : Tidy d) (ht : step d a = some t) : Tidy t := by
  cases a with
  | setSessionPassword password => exact Option.some.inj ht ▸ h.set password
  | startNetworkMonitor now => exact Option.some.inj ht ▸ h.startedMonitor now
  | stopNetworkMonitor => exact Option.some.inj ht ▸ h.stoppedMonitor
  | tick id now =>
      simp only [WindowClose.step] at ht
      split_ifs at ht
      obtain rfl := Option.some.inj ht
      exact ⟨h.secrets.of_eq rfl rfl rfl, h.ticking.rearmed id now⟩
  | addOther now interval =>
      obtain rfl := Option.some.inj ht
      exact ⟨h.secrets.of_eq rfl rfl rfl, h.ticking.added now interval⟩
  | dispatched id now again =>
      simp only [WindowClose.step] at ht
      split at ht
      · rename_i hr
        obtain rfl := Option.some.inj ht
        refine ⟨h.secrets.of_eq rfl rfl rfl, ?_⟩
        cases again with
        | true => exact h.ticking.rearmed id now
        | false => exact h.ticking.dropped hr
      · cases ht
  | startWatch raises => exact Option.some.inj ht ▸ h.of_eq rfl rfl rfl rfl rfl
  | onBackendSelected created =>
      obtain rfl := Option.some.inj ht
      cases created <;> exact h.of_eq rfl rfl rfl rfl rfl
  | listen i action =>
      obtain ⟨b, c, -, -, -, rfl⟩ := listen_cases ht
      exact h.of_eq rfl rfl rfl rfl rfl
  | close => exact Option.some.inj ht ▸ h.closed

theorem tidy_start : Tidy {} where
  secrets := ⟨(fun _ h => by cases h), fun _ => rfl, fun _ _ h => by cases h⟩
  ticking := ⟨⟨(fun _ h => by cases h), List.nodup_nil, (fun _ _ h => by cases h), fun _ _ h => by cases h⟩,
    (fun _ h => by cases h), fun _ h => by cases h⟩

theorem Ticking.sources (h : Ticking d) :
    (stopMonitor d).sched.sources = d.sched.sources.filter fun s => s.callback = .other := by
  have hkind : ∀ s ∈ d.sched.sources, s.callback = .other ↔ d.monitor.join ≠ some s.id := by
    intro s hs
    cases hc : s.callback with
    | tick => exact iff_of_false nofun fun hne => hne (h.owned s hs (Option.some_ne_none _) () (by rw [hc]; rfl))
    | other =>
        refine iff_of_true rfl fun he => ?_
        have hk := h.sound.own () s hs he
        rw [hc] at hk
        cases hk
  simp only [stopMonitor]
  cases hm : d.monitor.join with
  | none =>
      refine (List.filter_eq_self.mpr fun s hs => decide_eq_true ((hkind s hs).mpr ?_)).symm
      rw [hm]
      nofun
  | some id =>
      refine List.filter_congr fun s hs => decide_eq_decide.mpr ?_
      rw [hkind s hs, hm, Ne, Ne, Option.some.injEq, eq_comm]

theorem Tidy.released (h : Tidy d) : Released d (onWindowClose d) := by
  have hsecret : (onWindowClose d).secret = none := by
    simp only [onWindowClose, setSessionPassword, wipeSessionPassword]
    split
    · rfl
    · assumption
  refine ⟨fun buffer hb => ?_, h.closed.secrets.password, ?_⟩
  · obtain ⟨i, hi⟩ := List.mem_iff_getElem?.mp hb
    refine h.closed.secrets.scrubbed i buffer hi ?_
    rw [hsecret]
    exact Option.some_ne_none i ∘ Eq.symm
  · rw [onWindowClose, (rest_set _ none).1, stopWatch, stopNetworkMonitor_eq]
    exact h.ticking.sources

/-- Over every run the password that was set last is the only one in memory and the monitor
has one tick source at most, and closing the window leaves neither. With the subscriptions
it is so throughout exactly the runs in which no backend is dialled by a code after its
watch was stopped. -/
theorem close_releases (actions : List Action) :
    AllStates step (fun d => Clean d ∧ Released d (onWindowClose d)) {} actions ∧
      (AllStates step Wired {} actions ↔ AllSteps step Orderly {} actions) := by
  refine ⟨(allStates_of_invariant (fun _ _ _ h ht => h.step ht) tidy_start actions).mono fun _ h => ⟨h.clean, h.released⟩,
    allStates_iff_allSteps (I := Holding) (fun _ h => h.wired) (fun _ _ _ h ht hg => step_holding h ht hg)
      (fun _ _ _ _ ht hw => orderly_of_wired ht hw) actions ⟨(fun _ h => by cases h), fun _ h => by cases h⟩⟩

end EovpnPro.WindowClose
