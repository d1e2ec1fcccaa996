import EovpnPro.PyText
import EovpnPro.Raising

namespace EovpnPro.IpLookup

open PyText Raising

abbrev Text := List Char

/-- A value that `json.loads` gives, over some floats. An object has its members in the
order of the dictionary. -/
inductive Json (φ : Type)
  | null
  | bool (value : Bool)
  | int (value : Int)
  | float (value : φ)
  | string (text : Text)
  | array (items : List (Json φ))
  | object (members : List (Text × Json φ))

/-- What Python takes from its tables: the texts of floats, and Unicode's letter cases and
printable characters. -/
structure Tables (φ : Type) where
  floatRepr : φ → Text
  isPrintable : Char → Bool
  lower : Text → Text
  upper : Text → Text

def hex (width n : Nat) : Text := List.leftpad width '0' (Nat.toDigits 16 n)

def escapeChar (isPrintable : Char → Bool) (quote c : Char) : Text :=
  let n := c.toNat
  if c = quote ∨ c = '\\' then ['\\', c]
  else if c = '\t' then "\\t".toList
  else if c = '\n' then "\\n".toList
  else if c = '\r' then "\\r".toList
  else if n < 32 ∨ n = 127 then "\\x".toList ++ hex 2 n
  else if n < 127 ∨ isPrintable c = true then [c]
  else if n < 0x100 then "\\x".toList ++ hex 2 n
  else if n < 0x10000 then "\\u".toList ++ hex 4 n
  else "\\U".toList ++ hex 8 n

def singleQuote : Char := Char.ofNat 0x27

def doubleQuote : Char := Char.ofNat 0x22

def quoted (isPrintable : Char → Bool) (text : Text) : Text :=
  let quote := if singleQuote ∈ text ∧ doubleQuote ∉ text then doubleQuote else singleQuote
  quote :: text.flatMap (escapeChar isPrintable quote) ++ [quote]

def commas (texts : List Text) : Text := List.intercalate ", ".toList texts

mutual

def repr {φ : Type} (tables : Tables φ) : Json φ → Text
  | .null => "None".toList
  | .bool value => if value then "True".toList else "False".toList
  | .int value => (toString value).toList
  | .float value => tables.floatRepr value
  | .string text => quoted tables.isPrintable text
  | .array items => '[' :: commas (reprItems tables items) ++ [']']
  | .object members => '\x7b' :: commas (reprMembers tables members) ++ ['\x7d']

def reprItems {φ : Type} (tables : Tables φ) : List (Json φ) → List Text
  | [] => []
  | item :: rest => repr tables item :: reprItems tables rest

def reprMembers {φ : Type} (tables : Tables φ) : List (Text × Json φ) → List Text
  | [] => []
  | (key, value) :: rest =>
      (quoted tables.isPrintable key ++ ": ".toList ++ repr tables value) :: reprMembers tables rest

end

def str {φ : Type} (tables : Tables φ) : Json φ → Text
  | .string text => text
  | value => repr tables value

/-- What ends a provider early: whatever the request, the decoding and `json.loads` raise,
and the exceptions of `in` and `get` on values that have no such thing. -/
inductive Failure
  | request (message : Text)
  | typeError
  | attributeError
  deriving DecidableEq

structure Lookup where
  ip : Option Text := none
  country : Option Text := none
  countryCode : Option Text := none
  deriving DecidableEq

structure Replies (φ : Type) where
  cloudflare : Except Failure Text
  ipapi : Except Failure (Json φ)
  ipify : Except Failure (Json φ)

variable {φ : Type}

def uno : Text := "uno".toList

/-- A text in a condition: neither `None` nor empty. -/
def truthy (text : Option Text) : Option Text := text.filter (· ≠ [])

structure Found where
  ip : Option Text := none
  loc : Option Text := none

def cut (line : Text) : Text × Text := (line.takeWhile (· ≠ '='), (line.dropWhile (· ≠ '=')).tail)

def readLine (tables : Tables φ) (found : Found) (line : Text) : Found :=
  if '=' ∈ line then
    let (key, value) := cut line
    if strip key = "ip".toList then { found with ip := some (strip value) }
    else if strip key = "loc".toList then { found with loc := some (tables.lower (strip value)) }
    else found
  else found

def cloudflareHttps (tables : Tables φ) (reply : Except Failure Text) : Program Failure Lookup Bool := do
  let data ← ask reply
  let found := ((strip data).splitOn '\n').foldl (readLine tables) {}
  match truthy found.ip with
  | some ip =>
      modify fun s => { s with ip := some ip }
      modify fun s => { s with countryCode := some ((truthy found.loc).getD uno) }
      modify fun s => { s with country := some (((truthy found.loc).map tables.upper).getD "Unknown".toList) }
      pure true
  | none => pure false

def isIp : Json φ → Bool
  | .string text => decide (text = "ip".toList)
  | _ => false

def containsIp : Json φ → Except Failure Bool
  | .object members => .ok (members.lookup "ip".toList).isSome
  | .array items => .ok (items.any isIp)
  | .string text => .ok (occursIn "ip" text)
  | .null | .bool _ | .int _ | .float _ => .error .typeError

def get (key : String) (default : Json φ) : Json φ → Except Failure (Json φ)
  | .object members => .ok ((members.lookup key.toList).getD default)
  | _ => .error .attributeError

/-- What the two providers of JSON have in common. `rest` comes after the address. -/
def jsonProvider (tables : Tables φ) (rest : Json φ → Program Failure Lookup Unit)
    (reply : Except Failure (Json φ)) : Program Failure Lookup Bool := do
  let data ← ask reply
  if ← ask (containsIp data) then
    let ip ← ask (get "ip" .null data)
    modify fun s => { s with ip := some (str tables ip) }
    rest data
    pure true
  else pure false

def ipapiCo (tables : Tables φ) : Except Failure (Json φ) → Program Failure Lookup Bool :=
  jsonProvider tables fun data => do
    let code ← ask (get "country_code" (.string uno) data)
    modify fun s => { s with countryCode := some (tables.lower (str tables code)) }
    let name ← ask (get "country_name" (.string "Unknown".toList) data)
    modify fun s => { s with country := some (str tables name) }

/-- The country code is left as it is, where there is one. -/
def ipifyHttps (tables : Tables φ) : Except Failure (Json φ) → Program Failure Lookup Bool :=
  jsonProvider tables fun _ =>
    modify fun s => if truthy s.countryCode = none then { s with countryCode := some uno } else s

def providers (tables : Tables φ) (replies : Replies φ) : List (Program Failure Lookup Bool) :=
  [cloudflareHttps tables replies.cloudflare, ipapiCo tables replies.ipapi, ipifyHttps tables replies.ipify]

def update (tables : Tables φ) (replies : Replies φ) : Program Failure Lookup Bool :=
  firstOf (providers tables replies)

section Addresses

def fields (lines : List Text) : List (Text × Text) :=
  (lines.filter ('=' ∈ ·)).map fun line => (strip (cut line).1, strip (cut line).2)

/-- The address of a trace is its `ip` field, the last one where there are several. -/
def traceAddress (trace : Text) : Option Text :=
  truthy ((fields ((strip trace).splitOn '\n')).reverse.lookup "ip".toList)

def ipMember : Json φ → Option (Json φ)
  | .object members => members.lookup "ip".toList
  | _ => none

def address : Json φ → Option Text
  | .string text => if text = [] then none else some text
  | _ => none

def jsonAddress (data : Json φ) : Option Text := (ipMember data).bind address

def addresses (replies : Replies φ) : List (Option Text) :=
  [replies.cloudflare.toOption.bind traceAddress, replies.ipapi.toOption.bind jsonAddress,
    replies.ipify.toOption.bind jsonAddress]

/-- What the code takes for an address: any `ip` member, as a text. -/
def taken (tables : Tables φ) (data : Json φ) : Option Text := (ipMember data).map (str tables)

def allTaken (tables : Tables φ) (replies : Replies φ) : List (Option Text) :=
  [replies.cloudflare.toOption.bind traceAddress, replies.ipapi.toOption.bind (taken tables),
    replies.ipify.toOption.bind (taken tables)]

end Addresses

section Providers

variable {tables : Tables φ} {data : Json φ} {replies : Replies φ} {s : Lookup}

theorem fields_append (lines : List Text) (line : Text) :
    (fields (lines ++ [line])).reverse =
      (if '=' ∈ line then [(strip (cut line).1, strip (cut line).2)] else []) ++ (fields lines).reverse := by
  by_cases h : '=' ∈ line <;> simp [fields, h]

theorem foldl_readLine_ip (tables : Tables φ) (lines : List Text) :
    (lines.foldl (readLine tables) {}).ip = (fields lines).reverse.lookup "ip".toList := by
  induction lines using List.reverseRecOn with
  | nil => rfl
  | append_singleton lines line ih =>
      rw [List.foldl_append, List.foldl_cons, List.foldl_nil, fields_append]
      generalize lines.foldl (readLine tables) {} = found at ih
      by_cases hcut : '=' ∈ line
      · rw [readLine, if_pos hcut, if_pos hcut, List.singleton_append, List.lookup_cons]
        by_cases hip : strip (cut line).1 = "ip".toList
        · simp [hip]
        · have hne : ("ip".toList == strip (cut line).1) = false := beq_false_of_ne (Ne.symm hip)
          rw [hne]
          simp only [if_neg hip]
          split <;> exact ih
      · rw [readLine, if_neg hcut, if_neg hcut, List.nil_append]
        exact ih

def Placed (text : Text) (t : Lookup) : Prop := t.ip = some text

theorem cloudflareHttps_answers (tables : Tables φ) (reply : Except Failure Text) :
    Answers Placed (cloudflareHttps tables reply) (reply.toOption.bind traceAddress) := by
  apply answers_ask
  intro data _
  rw [traceAddress, ← foldl_readLine_ip tables]
  cases htruthy : truthy (((strip data).splitOn '\n').foldl (readLine tables) {}).ip with
  | none => simpa only [htruthy] using answers_false
  | some ip =>
      simp only [htruthy]
      rintro s t rfl
      exact ⟨rfl, rfl⟩

theorem refused_answers {k : Json φ → Program Failure Lookup Bool} {found : Bool}
    (hc : containsIp data = .ok found) (hg : get "ip" .null data = .error .attributeError) :
    Answers Placed (do
      if ← ask (containsIp data) then
        let ip ← ask (get "ip" .null data)
        k ip
      else pure false) none := by
  rw [hc, hg]
  rintro s t rfl
  cases found with
  | false => exact ⟨rfl, rfl⟩
  | true => exact ⟨rfl, rfl⟩

theorem jsonProvider_answers {rest : Json φ → Program Failure Lookup Unit}
    (hrest : ∀ members text, Triple (Placed text) (rest (.object members)) (fun _ => Placed text) fun _ _ => False)
    (reply : Except Failure (Json φ)) :
    Answers Placed (jsonProvider tables rest reply) (reply.toOption.bind (taken tables)) := by
  apply answers_ask
  intro data _
  cases data with
  | object members =>
      cases hip : members.lookup "ip".toList with
      | none =>
          rw [taken, ipMember, containsIp, hip]
          exact answers_false
      | some ip =>
          rw [taken, ipMember, containsIp, get, hip]
          rintro s t rfl
          have hplaced : Triple (Placed (str tables ip)) (do
              rest (.object members)
              pure true) (Settled Placed t (some (str tables ip))) fun _ _ => False := by
            apply (hrest members (str tables ip)).bind
            intro _
            exact triple_pure fun _ h => ⟨rfl, h⟩
          exact (hplaced { t with ip := some (str tables ip) } rfl).mono (fun _ _ h => h) fun _ _ h => h.elim
  | array items => exact refused_answers rfl rfl
  | string text => exact refused_answers rfl rfl
  | null | bool | int | float =>
      rintro s t rfl
      exact ⟨rfl, rfl⟩

theorem ipapiCo_answers (tables : Tables φ) (reply : Except Failure (Json φ)) :
    Answers Placed (ipapiCo tables reply) (reply.toOption.bind (taken tables)) := by
  apply jsonProvider_answers
  intro members text t ht
  exact ht

theorem ipifyHttps_answers (tables : Tables φ) (reply : Except Failure (Json φ)) :
    Answers Placed (ipifyHttps tables reply) (reply.toOption.bind (taken tables)) := by
  apply jsonProvider_answers
  intro members text
  apply triple_modify
  intro s hs
  split <;> exact hs

theorem providers_answers (tables : Tables φ) (replies : Replies φ) :
    List.Forall₂ (Answers Placed) (providers tables replies) (allTaken tables replies) :=
  .cons (cloudflareHttps_answers _ _) (.cons (ipapiCo_answers _ _) (.cons (ipifyHttps_answers _ _) .nil))

end Providers

section Update

variable {tables : Tables φ} {replies : Replies φ} {s : Lookup}

/-- What the lookup is for: true exactly when a reply carries an address, the first one
being the result, and nothing is touched otherwise. -/
structure Meets (tables : Tables φ) (replies : Replies φ) (s : Lookup) : Prop where
  done_iff : (update tables replies s).1 = .ok true ↔ ∃ text, some text ∈ addresses replies
  ip : (update tables replies s).1 = .ok true → (update tables replies s).2.ip = (addresses replies).findSome? id
  unchanged : (update tables replies s).1 = .ok false → (update tables replies s).2 = s

theorem update_settled (tables : Tables φ) (replies : Replies φ) (s : Lookup) :
    ∃ done t, update tables replies s = (.ok done, t) ∧
      Settled Placed s ((allTaken tables replies).findSome? id) done t := by
  have h := firstOf_answers (providers_answers tables replies) s s rfl
  change Ends _ _ (update tables replies s) at h
  rcases hr : update tables replies s with ⟨result, t⟩
  rw [hr] at h
  cases result with
  | ok done => exact ⟨done, t, rfl, h⟩
  | error x => exact h.elim

theorem findSome?_isSome_iff {answers : List (Option Text)} :
    (answers.findSome? id).isSome = true ↔ ∃ text, some text ∈ answers := by
  rw [List.findSome?_isSome_iff]
  constructor
  · rintro ⟨answer, hm, hs⟩
    obtain ⟨text, rfl⟩ := Option.isSome_iff_exists.mp hs
    exact ⟨text, hm⟩
  · rintro ⟨text, hm⟩
    exact ⟨some text, hm, rfl⟩

theorem str_of_address {value : Json φ} {text : Text} (h : address value = some text) :
    str tables value = text := by
  cases value with
  | string word =>
      rw [address] at h
      split_ifs at h
      exact Option.some.inj h
  | null | bool | int | float | array | object => cases h

theorem taken_of_jsonAddress {data : Json φ} {text : Text} (h : jsonAddress data = some text) :
    taken tables data = some text := by
  obtain ⟨value, hmember, haddress⟩ := Option.bind_eq_some_iff.mp h
  rw [taken, hmember, Option.map_some, str_of_address haddress]

theorem mem_allTaken {text : Text} (h : some text ∈ addresses replies) :
    some text ∈ allTaken tables replies := by
  have hjson {reply : Except Failure (Json φ)} (hr : reply.toOption.bind jsonAddress = some text) :
      reply.toOption.bind (taken tables) = some text := by
    obtain ⟨data, hd, ha⟩ := Option.bind_eq_some_iff.mp hr
    exact Option.bind_eq_some_iff.mpr ⟨data, hd, taken_of_jsonAddress ha⟩
  simp only [addresses, allTaken, List.mem_cons, List.not_mem_nil, or_false] at h ⊢
  exact h.imp id (Or.imp (fun h => (hjson h.symm).symm) fun h => (hjson h.symm).symm)

/-- The lookup does what it is for where it takes the first address of the replies. -/
theorem meets_iff_taken :
    Meets tables replies s ↔ (allTaken tables replies).findSome? id = (addresses replies).findSome? id := by
  obtain ⟨done, t, hr, hsettled⟩ := update_settled tables replies s
  have hsome : (∃ text, some text ∈ addresses replies) → ∃ text, some text ∈ allTaken tables replies :=
    fun ⟨text, hm⟩ => ⟨text, mem_allTaken hm⟩
  rw [← findSome?_isSome_iff, ← findSome?_isSome_iff] at hsome
  cases htaken : (allTaken tables replies).findSome? id with
  | none =>
      rw [htaken] at hsettled hsome
      obtain ⟨rfl, rfl⟩ := hsettled
      have hnone : (addresses replies).findSome? id = none := by
        rw [← Option.not_isSome_iff_eq_none]
        exact fun h => Bool.false_ne_true (hsome h)
      refine iff_of_true ⟨?_, ?_, ?_⟩ hnone.symm
      · rw [hr, ← findSome?_isSome_iff, hnone]
        exact iff_of_false (fun h => by cases h) Bool.false_ne_true
      · rw [hr]
        exact fun h => by cases h
      · rw [hr]
        exact fun _ => rfl
  | some text =>
      rw [htaken] at hsettled
      obtain ⟨rfl, hip⟩ := hsettled
      constructor
      · intro h
        have hfirst := h.ip (congrArg Prod.fst hr)
        rw [hr] at hfirst
        exact hip.symm.trans hfirst
      · intro hfirst
        refine ⟨?_, ?_, ?_⟩
        · rw [hr, ← findSome?_isSome_iff, ← hfirst]
          exact iff_of_true rfl rfl
        · rw [hr, ← hfirst]
          exact fun _ => hip
        · rw [hr]
          exact fun h => by cases h

/-- The replies of which the code takes no more than the addresses: a trace with an address,
or else an `ip` member from ipapi that is an address or reads like the one from ipify, or
else no such member and no false one from ipify. -/
def Truthful (tables : Tables φ) (replies : Replies φ) : Prop :=
  let ipapi := replies.ipapi.toOption.bind ipMember
  let ipify := replies.ipify.toOption.bind ipMember
  (replies.cloudflare.toOption.bind traceAddress).isSome = true ∨
    (∃ value, ipapi = some value ∧
      ((address value).isSome = true ∨ ipify.bind address = some (str tables value))) ∨
    ipapi = none ∧ ∀ value, ipify = some value → (address value).isSome = true

/-- The replies by their members: both lists have the same first answer just where the first
member that the code takes is an address, or reads like the address that comes after it. -/
theorem findSome?_taken_iff (trace : Option Text) (ipapi ipify : Option (Json φ)) :
    [trace, ipapi.map (str tables), ipify.map (str tables)].findSome? id =
        [trace, ipapi.bind address, ipify.bind address].findSome? id ↔
      trace.isSome = true ∨
        (∃ value, ipapi = some value ∧
          ((address value).isSome = true ∨ ipify.bind address = some (str tables value))) ∨
        ipapi = none ∧ ∀ value, ipify = some value → (address value).isSome = true := by
  cases trace with
  | some text => simp
  | none =>
      cases ipapi with
      | some value =>
          cases ha : address value with
          | some text => simp [ha, str_of_address ha]
          | none =>
              cases ipify.bind address with
              | some text => simp [ha, eq_comm (a := text)]
              | none => simp [ha]
      | none =>
          cases ipify with
          | some value =>
              cases ha : address value with
              | some text => simp [ha, str_of_address ha]
              | none => simp [ha]
          | none => simp

/-- The lookup does what it is for on exactly the truthful replies, whatever it knew before. -/
theorem meets_iff (tables : Tables φ) (replies : Replies φ) (s : Lookup) :
    Meets tables replies s ↔ Truthful tables replies := by
  have htaken (reply : Except Failure (Json φ)) :
      reply.toOption.bind (taken tables) = (reply.toOption.bind ipMember).map (str tables) :=
    Option.map_bind.symm
  have haddress (reply : Except Failure (Json φ)) :
      reply.toOption.bind jsonAddress = (reply.toOption.bind ipMember).bind address :=
    (Option.bind_assoc _ _ _).symm
  rw [meets_iff_taken, allTaken, addresses, htaken, htaken, haddress, haddress, findSome?_taken_iff]
  rfl

def plainTables : Tables Empty := ⟨Empty.elim, fun _ => true, lower, List.map Char.toUpper⟩

def addressUnknown : Replies Empty :=
  ⟨.error (.request "timed out".toList), .ok (.object [("ip".toList, .null)]),
    .error (.request "timed out".toList)⟩

theorem none_taken_for_address :
    update plainTables addressUnknown {} =
        (.ok true, ⟨some "None".toList, some "Unknown".toList, some "uno".toList⟩) ∧
      ¬Meets plainTables addressUnknown {} := by
  refine ⟨rfl, ?_⟩
  rw [meets_iff_taken]
  decide

end Update

end EovpnPro.IpLookup
