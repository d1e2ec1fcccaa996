import Mathlib.Data.List.Basic
import Mathlib.Logic.Function.Basic

namespace EovpnPro.Settings

inductive Key
  | lastConnected | lastConnectedCursor | notifications | manager | reqAuth | ca | remote
  | authUser | nmActiveUuid | showFlag | listboxVAdjust | layout | darkTheme | openvpn3Dco
  | autoReconnect | language | favorites
  deriving DecidableEq, Repr

def Key.name : Key → String
  | .lastConnected => "last-connected"
  | .lastConnectedCursor => "last-connected-cursor"
  | .notifications => "notifications"
  | .manager => "manager"
  | .reqAuth => "req-auth"
  | .ca => "ca"
  | .remote => "remote"
  | .authUser => "auth-user"
  | .nmActiveUuid => "nm-active-uuid"
  | .showFlag => "show-flag"
  | .listboxVAdjust => "listbox-v-adjust"
  | .layout => "layout"
  | .darkTheme => "dark-theme"
  | .openvpn3Dco => "openvpn3-dco"
  | .autoReconnect => "auto-reconnect"
  | .language => "language"
  | .favorites => "favorite-configs"

def allSettings : List Key :=
  [.lastConnected, .lastConnectedCursor, .notifications, .manager, .reqAuth, .ca, .remote,
    .authUser, .nmActiveUuid, .showFlag, .listboxVAdjust, .layout, .darkTheme, .openvpn3Dco,
    .autoReconnect, .language, .favorites]

inductive VariantType
  | b
  | i
  | s
  | d
  | as
  deriving DecidableEq, Repr

/-- A stored value. A double is kept as its bits. -/
inductive Variant
  | boolean (b : Bool)
  | int32 (n : Int32)
  | string (s : String)
  | double (d : BitVec 64)
  | strv (xs : List String)
  deriving DecidableEq

def Variant.type : Variant → VariantType
  | .boolean _ => .b
  | .int32 _ => .i
  | .string _ => .s
  | .double _ => .d
  | .strv _ => .as

/-- The default of the schema, which has the schema type of its key. -/
def Key.default : Key → Variant
  | .notifications | .openvpn3Dco => .boolean true
  | .reqAuth | .showFlag | .darkTheme | .autoReconnect => .boolean false
  | .lastConnected | .ca | .remote | .authUser | .nmActiveUuid => .string ""
  | .manager => .string "networkmanager"
  | .layout => .string "card-h"
  | .language => .string "en"
  | .lastConnectedCursor => .int32 (-1)
  | .listboxVAdjust => .double 0
  | .favorites => .strv []

/-- The values that were set, each of the schema type of its key. -/
structure Store where
  user : Key → Option Variant
  typed : ∀ key v, user key = some v → v.type = key.default.type

/-- The Python values that a setting, or a JSON document, consists of. -/
inductive Value
  | none
  | bool (b : Bool)
  | int (n : Int)
  | float (d : BitVec 64)
  | str (s : String)
  | list (xs : List Value)
  | dict (items : List (String × Value))

/-- A string setting as `get_setting` hands it out. The sentinel "null" is what
earlier releases wrote. -/
def readString (val : String) : Option String := if val = "null" ∨ val = "" then none else some val

def getValue (st : Store) (key : Key) : Variant := (st.user key).getD key.default

def getSetting (st : Store) (key : Key) : Value :=
  match getValue st key with
  | .boolean b => .bool b
  | .int32 n => .int n.toInt
  | .string val => (readString val).elim .none .str
  | .double d => .float d
  | .strv xs => .list (xs.map .str)

def reset (st : Store) (key : Key) : Store where
  user := Function.update st.user key none
  typed other v h := by
    by_cases hk : other = key
    · subst other; simp at h
    · exact st.typed other v (by simpa [hk] using h)

/-- A value of another type than that of the schema is refused. -/
def setValue (st : Store) (key : Key) (v : Variant) : Store :=
  if h : v.type = key.default.type then
    { user := Function.update st.user key (some v)
      typed := by
        intro other w hw
        by_cases hk : other = key
        · subst other
          obtain rfl : v = w := by simpa using hw
          exact h
        · exact st.typed other w (by simpa [hk] using hw) }
  else st

/-- `str`, where `repr` is the text of what is not a string itself. -/
def strOf (repr : Value → String) : Value → String
  | .str s => s
  | v => repr v

def toVariant (repr : Value → String) : Value → Except String (Option Variant)
  | .bool b => .ok (some (.boolean b))
  | .int n =>
      if -2147483648 ≤ n ∧ n < 2147483648 then .ok (some (.int32 (Int32.ofInt n)))
      else .error s!"{n} not in range -2147483648 to 2147483647"
  | .float d => .ok (some (.double d))
  | .str s => .ok (some (.string s))
  | .list xs => .ok (some (.strv (xs.map (strOf repr))))
  | .none | .dict _ => .ok none

def setSetting (repr : Value → String) (st : Store) (key : Key) : Value → Except String Store
  | .none => .ok (reset st key)
  | value => (toVariant repr value).map fun v => v.elim st (setValue st key)

def resetAllSettings (st : Store) : Store := allSettings.foldl reset st

/-- Set the known keys among some items, one after another, up to one that raises. -/
def setAll (repr : Value → String) (st : Store) : List (String × Value) → EStateM.Result String Store Unit
  | [] => .ok () st
  | (name, value) :: rest =>
      match allSettings.find? fun key => key.name = name with
      | none => setAll repr st rest
      | some key =>
          match setSetting repr st key value with
          | .error e => .error e st
          | .ok st => setAll repr st rest

/-- A string key with a default that is not empty holds neither of the two unset texts. -/
def Kept (st : Store) (key : Key) : Prop :=
  ∀ text, key.default = .string text → text ≠ "" →
    getValue st key ≠ .string "" ∧ getValue st key ≠ .string "null"

theorem mem_allSettings (key : Key) : key ∈ allSettings := by
  cases key <;> decide

theorem name_injective : Function.Injective Key.name := by
  intro k l h
  have hl : allSettings.find? (fun key => key.name = k.name) = some k := by cases k <;> decide
  have hr : allSettings.find? (fun key => key.name = l.name) = some l := by cases l <;> decide
  rw [h] at hl
  exact Option.some.inj (hl.symm.trans hr)

@[simp] theorem getValue_reset (st : Store) (key : Key) : getValue (reset st key) key = key.default := by
  simp [getValue, reset]

theorem getValue_reset_ne {st : Store} {key other : Key} (h : other ≠ key) :
    getValue (reset st key) other = getValue st other := by
  simp [getValue, reset, h]

theorem getValue_setValue {st : Store} {key : Key} {v : Variant} (h : v.type = key.default.type) :
    getValue (setValue st key v) key = v := by
  simp [getValue, setValue, h]

theorem getValue_setValue_ne {st : Store} {key other : Key} (v : Variant) (h : other ≠ key) :
    getValue (setValue st key v) other = getValue st other := by
  by_cases hv : v.type = key.default.type <;> simp [getValue, setValue, hv, h]

theorem getValue_type (st : Store) (key : Key) : (getValue st key).type = key.default.type := by
  cases h : st.user key with
  | none => simp [getValue, h]
  | some v => simpa [getValue, h] using st.typed key v h

theorem find_name (key : Key) : allSettings.find? (fun k => k.name = key.name) = some key := by
  cases h : allSettings.find? fun k => k.name = key.name with
  | none =>
      rw [List.find?_eq_none] at h
      exact absurd (decide_eq_true rfl) (h key (mem_allSettings key))
  | some found =>
      have hname : found.name = key.name := by simpa using List.find?_some h
      rw [name_injective hname]

theorem getValue_setSetting_ne {repr : Value → String} {st st' : Store} {key other : Key} {value : Value}
    (h : setSetting repr st key value = .ok st') (hne : other ≠ key) :
    getValue st' other = getValue st other := by
  have hset : ∀ v : Option Variant, getValue (v.elim st (setValue st key)) other = getValue st other := by
    intro v
    cases v with
    | none => rfl
    | some v => exact getValue_setValue_ne v hne
  cases value with
  | none =>
      obtain rfl : reset st key = st' := by simpa [setSetting] using h
      exact getValue_reset_ne hne
  | int n =>
      by_cases hn : -2147483648 ≤ n ∧ n < 2147483648
      · simp only [setSetting, toVariant, if_pos hn, Except.map, Except.ok.injEq] at h
        rw [← h]
        exact hset _
      · simp only [setSetting, toVariant, if_neg hn, Except.map] at h
        cases h
  | bool | float | str | list | dict =>
      simp only [setSetting, toVariant, Except.map, Except.ok.injEq] at h
      rw [← h]
      exact hset _

theorem unset_of_readString {s : String} (hs : readString s = none) : s = "null" ∨ s = "" := by
  by_contra hn
  simp [readString, hn] at hs

theorem Kept.default_of_unset {st : Store} {key : Key} {s : String} (hk : Kept st key)
    (hv : getValue st key = .string s) (hs : readString s = none) : key.default = .string "" := by
  have htype := getValue_type st key
  rw [hv] at htype
  cases hd : key.default with
  | string text =>
      apply congrArg
      by_contra hne
      obtain ⟨h₁, h₂⟩ := hk text hd hne
      rw [hv] at h₁ h₂
      rcases unset_of_readString hs with rfl | rfl
      · exact h₂ rfl
      · exact h₁ rfl
  | boolean | int32 | double | strv => rw [hd] at htype; cases htype

/-- Setting a key to what was read of it gives the same reading back. An unset
string is reset to its default, which is then unset as well. -/
theorem setSetting_getSetting {st : Store} {key : Key} (hk : Kept st key) (repr : Value → String)
    (fresh : Store) :
    ∃ st', setSetting repr fresh key (getSetting st key) = .ok st' ∧
      getSetting st' key = getSetting st key := by
  have htype := getValue_type st key
  have hset : ∀ v : Variant, v = getValue st key →
      getSetting (setValue fresh key v) key = getSetting st key := by
    rintro v rfl
    rw [getSetting, getValue_setValue htype, getSetting]
  cases hv : getValue st key with
  | boolean b | double d =>
      exact ⟨_, by rw [getSetting, hv]; rfl, hset _ hv.symm⟩
  | int32 n =>
      refine ⟨_, ?_, hset _ hv.symm⟩
      have hn : -2147483648 ≤ n.toInt ∧ n.toInt < 2147483648 := ⟨n.le_toInt, n.toInt_lt⟩
      simp only [getSetting, hv, setSetting, toVariant, if_pos hn, Int32.ofInt_toInt, Except.map,
        Option.elim]
  | strv xs =>
      refine ⟨_, ?_, hset _ hv.symm⟩
      have hxs : (xs.map Value.str).map (strOf repr) = xs := by
        rw [List.map_map]
        exact List.map_id'' (fun _ => rfl) xs
      simp only [getSetting, hv, setSetting, toVariant, hxs, Except.map, Option.elim]
  | string s =>
      cases hs : readString s with
      | some text =>
          obtain rfl : s = text := by
            simp only [readString] at hs
            split at hs
            · cases hs
            · exact Option.some.inj hs
          exact ⟨_, by simp only [getSetting, hv, hs, Option.elim]; rfl, hset _ hv.symm⟩
      | none =>
          refine ⟨reset fresh key, by simp only [getSetting, hv, hs, Option.elim]; rfl, ?_⟩
          simp only [getSetting, getValue_reset, hv, hk.default_of_unset hv hs, hs]
          rfl

/-- Whatever the order of the items and whatever was stored before, each key that
is among them reads afterwards as it did when they were taken. -/
theorem setAll_reads {st : Store} (hk : ∀ key, Kept st key) (repr : Value → String)
    {items : List (String × Value)} (fresh : Store)
    (hitems : ∀ item ∈ items, ∃ key, item = (key.name, getSetting st key)) :
    ∃ st', setAll repr fresh items = .ok () st' ∧
      ∀ key, (key.name, getSetting st key) ∈ items ∨ getSetting fresh key = getSetting st key →
        getSetting st' key = getSetting st key := by
  induction items generalizing fresh with
  | nil => exact ⟨fresh, rfl, fun key h => h.resolve_left List.not_mem_nil⟩
  | cons item rest ih =>
      obtain ⟨key, rfl⟩ := hitems _ List.mem_cons_self
      obtain ⟨next, hnext, hread⟩ := setSetting_getSetting (hk key) repr fresh
      obtain ⟨st', hst', hkeys⟩ := ih next fun item h => hitems item (List.mem_cons_of_mem _ h)
      refine ⟨st', by simp only [setAll, find_name, hnext, hst'], fun other hother => hkeys other ?_⟩
      by_cases heq : other = key
      · subst other
        exact .inr hread
      · rcases hother with hmem | hfresh
        · rcases List.mem_cons.mp hmem with hhead | htail
          · exact absurd (name_injective (congrArg Prod.fst hhead)) heq
          · exact .inl htail
        · right
          rw [← hfresh, getSetting, getValue_setSetting_ne hnext heq, getSetting]

end EovpnPro.Settings
