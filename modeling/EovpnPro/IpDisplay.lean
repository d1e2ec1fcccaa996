import EovpnPro.IpLookup
import EovpnPro.Runs

namespace EovpnPro.IpDisplay

open IpLookup PyText Raising Runs

variable {φ : Type}

abbrev Write := Lookup → Lookup

def applyAll (writes : List Write) (s : Lookup) : Lookup := writes.foldl (fun s write => write s) s

def cloudflareWrites (tables : Tables φ) (data : Text) : Option (List Write) :=
  let found := ((strip data).splitOn '\n').foldl (readLine tables) {}
  (truthy found.ip).map fun ip =>
    [fun s => { s with ip := some ip },
      fun s => { s with countryCode := some ((truthy found.loc).getD uno) },
      fun s => { s with country := some (((truthy found.loc).map tables.upper).getD "Unknown".toList) }]

def member (key : String) (default : Json φ) (members : List (Text × Json φ)) : Json φ :=
  (members.lookup key.toList).getD default

def jsonWrites (tables : Tables φ) (rest : List (Text × Json φ) → List Write) : Json φ → Option (List Write)
  | .object members => (members.lookup "ip".toList).map fun ip =>
      (fun s => { s with ip := some (str tables ip) }) :: rest members
  | _ => none

def ipapiWrites (tables : Tables φ) : Json φ → Option (List Write) :=
  jsonWrites tables fun members =>
    [fun s => { s with
        countryCode := some (tables.lower (str tables (member "country_code" (.string uno) members))) },
      fun s => { s with country := some (str tables (member "country_name" (.string "Unknown".toList) members)) }]

def ipifyWrites (tables : Tables φ) : Json φ → Option (List Write) :=
  jsonWrites tables fun _ =>
    [fun s => if truthy s.countryCode = none then { s with countryCode := some uno } else s]

/-- What a lookup assigns, with the replies that it is going to get. -/
def script (tables : Tables φ) (replies : Replies φ) : List Write :=
  match replies.cloudflare.toOption.bind (cloudflareWrites tables) with
  | some writes => writes
  | none =>
      match replies.ipapi.toOption.bind (ipapiWrites tables) with
      | some writes => writes
      | none => (replies.ipify.toOption.bind (ipifyWrites tables)).getD []

structure Flags where
  has : Text → Bool
  uno : has uno = true

/-- `get_country_pixbuf`, as the name of the flag. -/
def getCountryPixbuf (tables : Tables φ) (flags : Flags) (countryCode : Option Text) : Text :=
  let code := ((truthy countryCode).map tables.lower).getD uno
  if flags.has code then code else uno

def noAddress : Text := "0.0.0.0".toList

/-- The address and the flag of the window, the threads that look them up, each with what
it still has to assign, and the callbacks that are queued for the main loop. -/
structure Panel where
  lookup : Lookup
  threads : List (List Write)
  queued : Nat
  label : Text
  flag : Option Text

def updateIpFlagAsync (tables : Tables φ) (replies : Replies φ) (p : Panel) : Panel :=
  { p with threads := p.threads ++ [script tables replies] }

/-- One assignment of a thread, or its end. -/
def advance (i : Nat) (p : Panel) : Option Panel :=
  match p.threads[i]? with
  | none => none
  | some [] => some { p with threads := p.threads.eraseIdx i, queued := p.queued + 1 }
  | some (write :: rest) => some { p with lookup := write p.lookup, threads := p.threads.set i rest }

def applyIpLookup (tables : Tables φ) (flags : Flags) (p : Panel) : Option Panel :=
  if p.queued = 0 then none
  else
    some { p with
      queued := p.queued - 1
      flag := some (getCountryPixbuf tables flags p.lookup.countryCode)
      label := (truthy p.lookup.ip).getD noAddress }

inductive Act (φ : Type)
  | start (replies : Replies φ)
  | advance (i : Nat)
  | apply

def step (tables : Tables φ) (flags : Flags) (p : Panel) : Act φ → Option Panel
  | .start replies => some (updateIpFlagAsync tables replies p)
  | .advance i => advance i p
  | .apply => applyIpLookup tables flags p

def shown (tables : Tables φ) (replies : Replies φ) : Panel :=
  updateIpFlagAsync tables replies ⟨{}, [], 0, noAddress, none⟩

/-- A lookup is started when those before have made their assignments. -/
def Alone (p : Panel) : Act φ → Prop
  | .start _ => ∀ writes ∈ p.threads, writes = []
  | _ => True

def replies? : Act φ → Option (Replies φ)
  | .start replies => some replies
  | _ => none

instance (p : Panel) (a : Act φ) : Decidable (Alone p a) := by
  cases a <;> unfold Alone <;> infer_instance

def lookups (tables : Tables φ) (s : Lookup) (all : List (Replies φ)) : Lookup :=
  all.foldl (fun s replies => (update tables replies s).2) s

variable {tables : Tables φ} {flags : Flags} {p t : Panel}

def Skips {σ ε : Type} (attempt : Program ε σ Bool) (s : σ) : Prop :=
  attempt s = (.ok false, s) ∨ ∃ x, attempt s = (.error x, s)

def Assigns (attempt : Program Failure Lookup Bool) (writes : Option (List Write)) : Prop :=
  ∀ s, match writes with
    | some writes => attempt s = (.ok true, applyAll writes s)
    | none => Skips attempt s

theorem assigns_ask {α : Type} {k : α → Program Failure Lookup Bool} {writes : α → Option (List Write)}
    (h : ∀ a, Assigns (k a) (writes a)) (reply : Except Failure α) :
    Assigns (ask reply >>= k) (reply.toOption.bind writes) := by
  intro s
  cases reply with
  | ok a => exact h a s
  | error x => exact .inr ⟨x, rfl⟩

theorem cloudflareHttps_assigns (tables : Tables φ) (reply : Except Failure Text) :
    Assigns (cloudflareHttps tables reply) (reply.toOption.bind (cloudflareWrites tables)) := by
  refine assigns_ask (fun data s => ?_) reply
  rw [cloudflareWrites]
  cases htruthy : truthy (((strip data).splitOn '\n').foldl (readLine tables) {}).ip with
  | none =>
      simp only [htruthy, Option.map_none]
      exact .inl rfl
  | some ip =>
      simp only [Option.map_some]
      rfl

theorem refused_skips {k : Json φ → Program Failure Lookup Bool} {data : Json φ} {found : Bool} {s : Lookup}
    (hc : containsIp data = .ok found) (hg : IpLookup.get "ip" .null data = .error .attributeError) :
    Skips (do
      if ← ask (containsIp data) then
        let ip ← ask (IpLookup.get "ip" .null data)
        k ip
      else pure false) s := by
  rw [hc, hg]
  cases found with
  | false => exact .inl rfl
  | true => exact .inr ⟨_, rfl⟩

theorem jsonProvider_assigns {rest : Json φ → Program Failure Lookup Unit}
    {writes : List (Text × Json φ) → List Write}
    (hrest : ∀ members s, rest (.object members) s = (.ok (), applyAll (writes members) s))
    (reply : Except Failure (Json φ)) :
    Assigns (jsonProvider tables rest reply) (reply.toOption.bind (jsonWrites tables writes)) := by
  refine assigns_ask (fun data s => ?_) reply
  cases data with
  | object members =>
      cases hip : members.lookup "ip".toList with
      | none =>
          rw [jsonWrites, hip, containsIp, hip]
          exact .inl rfl
      | some ip =>
          rw [jsonWrites, hip, containsIp, IpLookup.get, hip]
          have hdone := hrest members { s with ip := some (str tables ip) }
          change (do
            rest (.object members)
            pure true : Program Failure Lookup Bool) { s with ip := some (str tables ip) } = _
          rw [run_bind_ok hdone]
          rfl
  | array items => exact refused_skips rfl rfl
  | string text => exact refused_skips rfl rfl
  | null | bool | int | float => exact .inr ⟨_, rfl⟩

theorem ipapiCo_assigns (tables : Tables φ) (reply : Except Failure (Json φ)) :
    Assigns (ipapiCo tables reply) (reply.toOption.bind (ipapiWrites tables)) :=
  jsonProvider_assigns (fun _ _ => rfl) reply

theorem ipifyHttps_assigns (tables : Tables φ) (reply : Except Failure (Json φ)) :
    Assigns (ipifyHttps tables reply) (reply.toOption.bind (ipifyWrites tables)) :=
  jsonProvider_assigns (fun _ _ => rfl) reply

/-- A lookup that runs alone assigns what its script says. -/
theorem update_eq_script (tables : Tables φ) (replies : Replies φ) (s : Lookup) :
    (update tables replies s).2 = applyAll (script tables replies) s := by
  have hcloudflare := cloudflareHttps_assigns tables replies.cloudflare s
  have hipapi := ipapiCo_assigns tables replies.ipapi s
  have hipify := ipifyHttps_assigns tables replies.ipify s
  rw [update, providers, script]
  cases hc : replies.cloudflare.toOption.bind (cloudflareWrites tables) with
  | some writes =>
      rw [hc] at hcloudflare
      rw [firstOf_done hcloudflare]
  | none =>
      rw [hc] at hcloudflare
      rw [firstOf_skips hcloudflare]
      cases ha : replies.ipapi.toOption.bind (ipapiWrites tables) with
      | some writes =>
          rw [ha] at hipapi
          rw [firstOf_done hipapi]
      | none =>
          rw [ha] at hipapi
          rw [firstOf_skips hipapi]
          cases hi : replies.ipify.toOption.bind (ipifyWrites tables) with
          | some writes =>
              rw [hi] at hipify
              rw [firstOf_done hipify]
              rfl
          | none =>
              rw [hi] at hipify
              rw [firstOf_skips hipify]
              rfl

def assigning (threads : List (List Write)) : Nat := threads.countP fun writes => !writes.isEmpty

theorem assigning_eq_zero {threads : List (List Write)} :
    assigning threads = 0 ↔ ∀ writes ∈ threads, writes = [] := by
  simp [assigning, List.countP_eq_zero]

/-- The lookups so far, as far as the one thread that may still assign has not undone them. -/
structure Serial (tables : Tables φ) (flags : Flags) (p : Panel) (s : Lookup) : Prop where
  lookup : applyAll p.threads.flatten p.lookup = s
  one : assigning p.threads ≤ 1
  shown : p.threads ≠ [] ∨ p.queued ≠ 0 ∨
    p.label = (truthy p.lookup.ip).getD noAddress ∧
      p.flag = some (getCountryPixbuf tables flags p.lookup.countryCode)

theorem Serial.started {s : Lookup} (h : Serial tables flags p s) (hall : ∀ writes ∈ p.threads, writes = [])
    (replies : Replies φ) :
    Serial tables flags (updateIpFlagAsync tables replies p) (update tables replies s).2 := by
  have hflat : p.threads.flatten = [] := List.flatten_eq_nil_iff.mpr hall
  have hlookup : p.lookup = s := by simpa [hflat, applyAll] using h.lookup
  have hnone : assigning p.threads = 0 := assigning_eq_zero.mpr hall
  refine ⟨?_, ?_, .inl (List.append_ne_nil_of_right_ne_nil _ (List.cons_ne_nil _ _))⟩
  · rw [update_eq_script, ← hlookup]
    simp [updateIpFlagAsync, hflat]
  · have hnew : assigning [script tables replies] ≤ 1 := List.countP_le_length
    have hsum : assigning (p.threads ++ [script tables replies]) =
        assigning p.threads + assigning [script tables replies] := List.countP_append
    rw [updateIpFlagAsync, hsum, hnone, Nat.zero_add]
    exact hnew

theorem Serial.advanced {s : Lookup} {i : Nat} (h : Serial tables flags p s) (ht : advance i p = some t) :
    Serial tables flags t s := by
  rw [advance] at ht
  split at ht
  · cases ht
  · rename_i hi
    obtain rfl := Option.some.inj ht
    obtain ⟨hlt, hget⟩ := List.getElem?_eq_some_iff.mp hi
    have hthreads : p.threads = p.threads.take i ++ [] :: p.threads.drop (i + 1) := by
      rw [← hget, ← List.drop_eq_getElem_cons hlt, List.take_append_drop]
    have hone := h.one
    have hlookup := h.lookup
    rw [hthreads] at hone hlookup
    refine ⟨?_, ?_, .inr (.inl (Nat.succ_ne_zero _))⟩
    · rw [List.eraseIdx_eq_take_drop_succ]
      simpa using hlookup
    · rw [List.eraseIdx_eq_take_drop_succ]
      simpa [assigning] using hone
  · rename_i write rest hi
    obtain rfl := Option.some.inj ht
    obtain ⟨hlt, hget⟩ := List.getElem?_eq_some_iff.mp hi
    have hthreads : p.threads = p.threads.take i ++ (write :: rest) :: p.threads.drop (i + 1) := by
      rw [← hget, ← List.drop_eq_getElem_cons hlt, List.take_append_drop]
    have hset : p.threads.set i rest = p.threads.take i ++ rest :: p.threads.drop (i + 1) :=
      List.set_eq_take_append_cons_drop.trans (if_pos hlt)
    have hone := h.one
    have hlookup := h.lookup
    rw [hthreads] at hone hlookup
    obtain ⟨hfront, hback⟩ : assigning (p.threads.take i) = 0 ∧ assigning (p.threads.drop (i + 1)) = 0 := by
      simp only [assigning, List.countP_append, List.countP_cons, List.isEmpty_cons, Bool.not_false,
        if_true] at hone ⊢
      omega
    have hfrontFlat := List.flatten_eq_nil_iff.mpr (assigning_eq_zero.mp hfront)
    have hbackFlat := List.flatten_eq_nil_iff.mpr (assigning_eq_zero.mp hback)
    refine ⟨?_, ?_, .inl ?_⟩
    · rw [hset]
      simpa [hfrontFlat, hbackFlat, applyAll] using hlookup
    · rw [hset]
      simp only [assigning, List.countP_append, List.countP_cons] at hfront hback ⊢
      split <;> omega
    · rw [hset]
      exact List.append_ne_nil_of_right_ne_nil _ (List.cons_ne_nil _ _)

theorem serial_step {s : Lookup} {a : Act φ} (h : Serial tables flags p s) (halone : Alone p a)
    (hstep : step tables flags p a = some t) :
    Serial tables flags t (lookups tables s (replies? a).toList) := by
  cases a with
  | start replies =>
      cases hstep
      exact h.started halone replies
  | advance i => exact h.advanced hstep
  | apply =>
      simp only [step, applyIpLookup] at hstep
      split at hstep
      · cases hstep
      · cases hstep
        exact ⟨h.lookup, h.one, .inr (.inr ⟨rfl, rfl⟩)⟩

theorem serial_run {s : Lookup} {acts : List (Act φ)} (h : Serial tables flags p s)
    (halone : AllSteps (step tables flags) Alone p acts) (hrun : run (step tables flags) p acts = some t) :
    Serial tables flags t (lookups tables s (acts.filterMap replies?)) := by
  induction acts generalizing p s with
  | nil =>
      cases hrun
      exact h
  | cons a acts ih =>
      obtain ⟨m, hm, hrest⟩ := Option.bind_eq_some_iff.mp hrun
      obtain ⟨hfirst, hafter⟩ := halone m hm
      have hlast := ih (serial_step h hfirst hm) hafter hrest
      cases a with
      | start replies => exact hlast
      | advance i => exact hlast
      | apply => exact hlast

/-- Whatever the replies and however the assignments, the ends of the threads and the
callbacks are spread over the run: once all lookups and callbacks are over, the window
shows what the lookups give when each is made at once, if none was started while
another one had assignments to make. -/
theorem panel_shows_lookups {first : Replies φ} {acts : List (Act φ)}
    (hrun : run (step tables flags) (shown tables first) acts = some t)
    (halone : AllSteps (step tables flags) Alone (shown tables first) acts)
    (hthreads : t.threads = []) (hqueued : t.queued = 0) :
    t.label = (truthy (lookups tables {} (first :: acts.filterMap replies?)).ip).getD noAddress ∧
      t.flag = some (getCountryPixbuf tables flags
        (lookups tables {} (first :: acts.filterMap replies?)).countryCode) := by
  have hstart : Serial tables flags (shown tables first) (update tables first {}).2 := by
    refine ⟨?_, List.countP_le_length, .inl (List.cons_ne_nil _ _)⟩
    simp [shown, updateIpFlagAsync, update_eq_script]
  obtain ⟨hlookup, -, hshown⟩ := serial_run hstart halone hrun
  have hlast : t.lookup = lookups tables {} (first :: acts.filterMap replies?) := by
    rw [hthreads] at hlookup
    exact hlookup
  rw [← hlast]
  rcases hshown with hbusy | hbusy | hshows
  · exact absurd hthreads hbusy
  · exact absurd hqueued hbusy
  · exact hshows

def ipifyOnly : Replies Empty :=
  ⟨.error (.request "timed out".toList), .error (.request "timed out".toList),
    .ok (.object [("ip".toList, .string "192.0.2.1".toList)])⟩

def traced : Replies Empty :=
  ⟨.ok "ip=198.51.100.7\nloc=FR\n".toList, .error (.request "timed out".toList),
    .error (.request "timed out".toList)⟩

def allFlags : Flags := ⟨fun _ => true, rfl⟩

def twoLookups : List (Act Empty) :=
  [.advance 0, .advance 0, .start traced, .advance 1, .advance 0, .apply, .advance 0, .advance 0, .advance 0, .apply]

theorem panel_shows_lookups_twice :
    ∃ t, run (step plainTables allFlags) (shown plainTables ipifyOnly) twoLookups = some t ∧
      t.label = (truthy (lookups plainTables {} [ipifyOnly, traced]).ip).getD noAddress ∧
        t.flag = some (getCountryPixbuf plainTables allFlags
          (lookups plainTables {} [ipifyOnly, traced]).countryCode) :=
  ⟨_, rfl, panel_shows_lookups
    (rfl : run (step plainTables allFlags) (shown plainTables ipifyOnly) twoLookups = some _) (by decide) rfl rfl⟩

end EovpnPro.IpDisplay
