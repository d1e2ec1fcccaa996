import Mathlib.Data.List.Basic

namespace EovpnPro.OpenVpn3Status

inductive StatusMajor
  | connection
  | other
  deriving DecidableEq, Repr

inductive StatusMinor
  | connConnecting
  | connConnected
  | connDisconnected
  | connAuthFailed
  | connPaused
  | connResuming
  | other
  deriving DecidableEq, Repr

structure SessionStatus where
  major : StatusMajor
  minor : StatusMinor
  deriving DecidableEq, Repr

/-- What reading the status property of one session gives; `none` is a D-Bus
failure. -/
abbrev StatusAnswer := Option SessionStatus

/-- What `FetchAvailableSessions` gives, with the answer each session would give
when it is asked; `none` is a D-Bus failure. -/
abbrev Fetch := Option (List StatusAnswer)

def established (s : SessionStatus) : Bool :=
  decide (s.major = .connection) && (decide (s.minor = .connConnected) || decide (s.minor = .connPaused))

def sessionStatusIsConnected (answer : StatusAnswer) : Bool := answer.any established

/-- `get_connection_status`: -1 when the session list cannot be read. -/
def getConnectionStatus (fetch : Fetch) : Int :=
  match fetch with
  | none => -1
  | some sessions => if sessions.any sessionStatusIsConnected then 1 else 0

def tryConnectionStatus : Nat → List Fetch → Int
  | 0, _ => 0
  | tries + 1, fetches =>
      let status := getConnectionStatus (fetches.headD none)
      if status ≠ -1 then status else tryConnectionStatus tries fetches.tail

def pGetConnectionStatus (fetches : List Fetch) : Int := tryConnectionStatus 6 fetches

def status (fetches : List Fetch) : Bool := decide (pGetConnectionStatus fetches ≠ 0)

theorem getConnectionStatus_cases (fetch : Fetch) :
    getConnectionStatus fetch = -1 ∨ getConnectionStatus fetch = 0 ∨
      ∃ sessions, fetch = some sessions ∧ sessions.any sessionStatusIsConnected = true ∧
        getConnectionStatus fetch = 1 := by
  cases fetch with
  | none => exact .inl rfl
  | some sessions =>
      by_cases h : sessions.any sessionStatusIsConnected = true
      · exact .inr (.inr ⟨sessions, rfl, h, by simp only [getConnectionStatus, h, if_true]⟩)
      · exact .inr (.inl (by simp only [getConnectionStatus, h]; rfl))

theorem tryConnectionStatus_established {tries : Nat} {fetches : List Fetch}
    (h : tryConnectionStatus tries fetches ≠ 0) :
    ∃ sessions, some sessions ∈ fetches ∧ ∃ s, some s ∈ sessions ∧ established s = true := by
  induction tries generalizing fetches with
  | zero => exact absurd rfl h
  | succ tries ih =>
      simp only [tryConnectionStatus] at h
      rcases getConnectionStatus_cases (fetches.headD none) with hs | hs | ⟨sessions, hf, hany, hs⟩
      · simp only [hs, ne_eq, not_true_eq_false, if_false] at h
        obtain ⟨sessions, hm, hx⟩ := ih h
        exact ⟨sessions, List.mem_of_mem_tail hm, hx⟩
      · rw [hs] at h; exact absurd rfl h
      · cases fetches with
        | nil => simp at hf
        | cons fetch fetches =>
            obtain ⟨answer, ha, hc⟩ := List.any_eq_true.mp hany
            cases answer with
            | none => simp [sessionStatusIsConnected] at hc
            | some s => exact ⟨sessions, by simpa using .inl hf.symm, s, ha, hc⟩

theorem status_established {fetches : List Fetch} (h : status fetches = true) :
    ∃ sessions, some sessions ∈ fetches ∧ ∃ s, some s ∈ sessions ∧ established s = true :=
  tryConnectionStatus_established (of_decide_eq_true h)

end EovpnPro.OpenVpn3Status
