import EovpnPro.ConfigSource
import EovpnPro.PyUrl

namespace EovpnPro.SourceHosts

open ConfigSource IpAddress PyText PyUrl

def hasSuffix (host : List Char) (suffix : String) : Bool := decide (suffix.toList <:+ host)

def localhosts : List (List Char) := ["localhost".toList, "localhost.localdomain".toList]

def isPrivateOrLoopbackHost (host : List Char) : Bool :=
  if host = [] then false
  else if host ∈ localhosts then true
  else match ipAddress (unbracket host) with
    | some ip => ip.isLoopback || ip.isPrivate || ip.isLinkLocal || ip.isReserved
    | none => hasSuffix (unbracket host) ".local" || hasSuffix (unbracket host) ".localhost"

def isHardBlockedSourceHost (host : List Char) : Bool :=
  if host = [] then false
  else
    let host := unbracket host
    if host ∈ localhosts then true
    else if hasSuffix host ".localhost" || hasSuffix host ".local" then true
    else match ipAddress host with
      | none => false
      | some _ => isPrivateOrLoopbackHost host

section Fetching

variable (refusal : List Char → Option String)

/-- The checks that `fetch_zip_archive` makes before it opens a URL. -/
def openSource (src : List Char) : Except ImportError Unit :=
  match urlparse refusal src with
  | .error message => .error (.value message)
  | .ok parsed =>
      if parsed.scheme ≠ [] ∧ parsed.scheme ≠ "https".toList then
        .error (.insecureSource "Insecure configuration source blocked: remote URLs must use HTTPS.")
      else if parsed.scheme = [] then .error (.fileNotFound "Configuration source was not found.")
      else if isHardBlockedSourceHost (hostname (hostinfo parsed.netloc)) then
        .error
          (.insecureSource "Configuration sources on localhost or private network addresses are blocked.")
      else .ok ()

/-- `_SafeRedirectHandler.redirect_request`, which then leaves the hop to `urllib`. -/
def redirectRequest (newurl : List Char) : Except ImportError Unit :=
  match urlparse refusal newurl with
  | .error message => .error (.value message)
  | .ok parsed =>
      if parsed.scheme ≠ "https".toList then
        .error (.insecureSource "Insecure redirect blocked: only HTTPS is permitted.")
      else if isHardBlockedSourceHost (hostname (hostinfo parsed.netloc)) then
        .error (.insecureSource "Redirect to a local or private host was blocked.")
      else .ok ()

/-- A request with the URL that was checked before it. -/
structure Hop where
  url : List Char
  request : Request

/-- The redirects that are followed, each checked before its request is sent. -/
def follow : List (List Char) → List Hop
  | [] => []
  | newurl :: newurls =>
      match redirectRequest refusal newurl, request (quoteSpaces newurl) with
      | .ok (), some request => ⟨newurl, request⟩ :: follow newurls
      | _, _ => []

def requests (source : List Char) (redirects : List (List Char)) : List Hop :=
  match openSource refusal source, request source with
  | .ok (), some request => ⟨source, request⟩ :: follow refusal redirects
  | _, _ => []

theorem fetchZipArchive_url {src : List Char} {parsed : Parsed} (h : urlparse refusal src = .ok parsed)
    (response : Except ImportError Response) :
    fetchZipArchive (.url (String.ofList parsed.scheme)
        (isHardBlockedSourceHost (hostname (hostinfo parsed.netloc))) response) =
      openSource refusal src >>= fun _ => response >>= fun response => readLimited response >>= makeZip := by
  have hnil : String.ofList parsed.scheme = "" ↔ parsed.scheme = [] := by
    rw [← String.toList_inj, String.toList_ofList]
    rfl
  have hhttps : String.ofList parsed.scheme = "https" ↔ parsed.scheme = "https".toList := by
    rw [← String.toList_inj, String.toList_ofList]
  simp only [fetchZipArchive, openSource, h, ne_eq, hnil, hhttps]
  split_ifs <;> rfl

end Fetching

def forbidden (ip : Address) : Bool := ip.isLoopback || ip.isPrivate || ip.isLinkLocal || ip.isReserved

def isLocalName (name : List Char) : Bool :=
  decide (name ∈ localhosts) || hasSuffix name ".localhost" || hasSuffix name ".local"

def withoutDot (name : List Char) : List Char := if name.getLast? = some '.' then name.dropLast else name

/-- What the resolver takes a host for, whatever its case: an IPv6 literal, a numeric
IPv4 address in any spelling, or else a name, the last two with a dot after them or not. -/
def denotesLocal (host : List Char) : Bool :=
  let folded := lower host
  match parseIpv6 folded with
  | some n => forbidden (.v6 n)
  | none =>
      match inetAton (withoutDot folded) with
      | some n => forbidden (.v4 n)
      | none => isLocalName (withoutDot folded)

def Allowed (request : Request) : Prop := request.type = "https".toList ∧ denotesLocal request.host = false

def lastLabel (name : List Char) : List Char := afterLast '.' name

/-- A spelling that the resolver reads and the suffix tests and `ipaddress` do not: a dot
at the end, a number instead of four decimal parts, or capitals after a percent sign in
the last label. -/
def Misspelled (host : List Char) : Prop :=
  ipAddress (hostname host) = none ∧
    ((lower host).getLast? = some '.' ∨ (inetAton (lower host)).isSome = true ∨
      lastLabel (hostname host) ≠ lastLabel (lower host))

/-- The host of a URL that the checks look at. -/
def checkedHost (url : List Char) : List Char := hostinfo (splitNetloc (splitScheme (cleaned url)).2)

/-- The resolver takes the host that is connected to for a local one, and the checks see
a misspelling of it, or another host that they let pass. -/
def Disguised (hop : Hop) : Prop :=
  denotesLocal hop.request.host = true ∧
    if lower hop.request.host = lower (checkedHost hop.url) then Misspelled (checkedHost hop.url)
    else isHardBlockedSourceHost (hostname (checkedHost hop.url)) = false

section Folding

variable {host : List Char} {c : Char}

theorem host_eq (host : List Char) :
    before '%' host ++ host.dropWhile (fun c => decide (c ≠ '%')) = host :=
  List.takeWhile_append_dropWhile

theorem lower_hostname (host : List Char) : lower (hostname host) = lower host := by
  rw [hostname, lower_append, lower_lower, ← lower_append, host_eq]

theorem mem_hostname (hc : c.toNat < 65 ∨ (90 < c.toNat ∧ c.toNat < 97)) :
    c ∈ hostname host ↔ c ∈ host := by
  rw [hostname, List.mem_append, mem_lower hc, ← List.mem_append, host_eq]

theorem hostname_of_notMem (h : '%' ∉ host) : hostname host = lower host := by
  have hzone : host.dropWhile (fun c => decide (c ≠ '%')) = [] :=
    List.dropWhile_eq_nil_iff.mpr fun c hc => decide_eq_true fun he => h (he ▸ hc)
  have hall : before '%' host = host := by simpa only [hzone, List.append_nil] using host_eq host
  rw [hostname, hzone, hall, List.append_nil]

theorem zone_cases (host : List Char) : host.dropWhile (fun c => decide (c ≠ '%')) = [] ∨
    ∃ zone, host.dropWhile (fun c => decide (c ≠ '%')) = '%' :: zone := by
  cases hz : host.dropWhile fun c => decide (c ≠ '%') with
  | nil => exact .inl rfl
  | cons c zone =>
      have hc := List.head?_dropWhile_not (fun c => decide (c ≠ '%')) host
      rw [hz] at hc
      exact .inr ⟨zone, by simpa using hc⟩

theorem parseIpv6_hostname (host : List Char) : parseIpv6 (hostname host) = parseIpv6 (lower host) := by
  have hslash : '/' ∈ hostname host ↔ '/' ∈ lower host := by
    rw [mem_hostname (by decide), mem_lower (by decide)]
  have hsplit : splitScope (hostname host) = splitScope (lower host) := by
    have hl : lower host = lower (before '%' host) ++ lower (host.dropWhile fun c => decide (c ≠ '%')) := by
      rw [← lower_append, host_eq]
    have hp : '%' ∉ lower (before '%' host) := by
      rw [mem_lower (by decide)]
      exact notMem_before '%' host
    rw [hl, hostname]
    obtain hz | ⟨zone, hz⟩ := zone_cases host
    · rw [hz]
      rfl
    · have hlower : lower ('%' :: zone) = '%' :: lower zone := rfl
      have hempty : lower zone = [] ↔ zone = [] := by
        cases zone with
        | nil => simp [lower]
        | cons c zone =>
            simp only [lower, List.flatMap_cons, List.append_eq_nil_iff, reduceCtorEq, iff_false, not_and]
            intro h
            simp only [lowerChar] at h
            split_ifs at h
      have hpercent : '%' ∈ lower zone ↔ '%' ∈ zone := mem_lower (by decide)
      rw [hz, hlower, splitScope_zone _ hp, splitScope_zone _ hp]
      simp only [hempty, hpercent]
  simp only [parseIpv6, hslash, hsplit]

end Folding

section Blocking

variable {host : List Char}

theorem unbracket_checkedHost (url : List Char) :
    unbracket (hostname (checkedHost url)) = hostname (checkedHost url) := by
  rw [unbracket, if_neg]
  rintro ⟨hfirst, hlast⟩
  have hopen := (mem_hostname (by decide)).mp (List.mem_of_head? hfirst)
  have hclose := (mem_hostname (by decide)).mp (List.mem_of_getLast? hlast)
  simp only [checkedHost, hostinfo] at hopen hclose
  split_ifs at hopen hclose with hb
  · exact notMem_before ']' _ hclose
  · exact hb ((List.takeWhile_prefix _).subset hopen)

theorem hardBlocked_eq (hbracket : unbracket host = host) :
    isHardBlockedSourceHost host = (isLocalName host || (ipAddress host).any forbidden) := by
  by_cases he : host = []
  · subst he
    decide
  · simp only [isHardBlockedSourceHost, isPrivateOrLoopbackHost, hbracket, if_neg he, isLocalName]
    by_cases hl : host ∈ localhosts
    · simp [hl]
    · cases hasSuffix host ".localhost" <;> cases hasSuffix host ".local" <;> cases ipAddress host <;>
        simp [hl, forbidden]

theorem lastLabel_append {label : List Char} (front : List Char) (h : '.' ∉ label) :
    lastLabel (front ++ '.' :: label) = label := by
  have hall : ∀ c ∈ label.reverse, decide (c ≠ '.') = true := fun c hc =>
    decide_eq_true fun he => h (he ▸ List.mem_reverse.mp hc)
  rw [lastLabel, afterLast, before, List.reverse_append, List.reverse_cons, List.append_assoc,
    List.takeWhile_append_of_pos hall]
  simp

theorem lastLabel_cases (name : List Char) :
    lastLabel name = name ∨ ∃ front, name = front ++ '.' :: lastLabel name := by
  have hname : name = (name.reverse.dropWhile fun c => decide (c ≠ '.')).reverse ++ lastLabel name := by
    rw [lastLabel, afterLast, before, ← List.reverse_append, List.takeWhile_append_dropWhile, List.reverse_reverse]
  cases hd : name.reverse.dropWhile (fun c => decide (c ≠ '.')) with
  | nil =>
      rw [hd] at hname
      exact .inl hname.symm
  | cons c rest =>
      have hc := List.head?_dropWhile_not (fun c => decide (c ≠ '.')) name.reverse
      rw [hd] at hc
      obtain rfl : c = '.' := by simpa using hc
      rw [hd, List.reverse_cons, List.append_assoc] at hname
      exact .inr ⟨rest.reverse, hname⟩

theorem inetAton_eq_none {name : List Char} (h : 'l' ∈ name) : inetAton name = none := by
  cases ha : inetAton name with
  | none => rfl
  | some n => exact absurd (numeric_of_inetAton ha 'l' h) (by decide)

def localLabels : List (List Char) := ["local".toList, "localhost".toList]

theorem isLocalName_cases {name : List Char} (h : isLocalName name = true) :
    name ∈ localhosts ∨ ∃ front, ∃ label ∈ localLabels, name = front ++ '.' :: label := by
  simp only [isLocalName, hasSuffix, Bool.or_eq_true, decide_eq_true_eq] at h
  obtain (h | ⟨front, h⟩) | ⟨front, h⟩ := h
  · exact .inl h
  · exact .inr ⟨front, "localhost".toList, by decide, h.symm⟩
  · exact .inr ⟨front, "local".toList, by decide, h.symm⟩

theorem isLocalName_append {label : List Char} (front : List Char) (h : label ∈ localLabels) :
    isLocalName (front ++ '.' :: label) = true := by
  simp only [localLabels, List.mem_cons, List.not_mem_nil, or_false] at h
  simp only [isLocalName, hasSuffix, Bool.or_eq_true, decide_eq_true_eq]
  rcases h with rfl | rfl
  · exact .inr ⟨front, rfl⟩
  · exact .inl (.inr ⟨front, rfl⟩)

theorem labels_plain : ∀ label ∈ localLabels,
    '.' ∉ label ∧ 'l' ∈ label ∧ lower label = label ∧ label.getLast? ≠ none := by
  decide

theorem percent_notMem_of_localhosts {name : List Char} (h : name ∈ localhosts) : '%' ∉ name := by
  revert name
  decide

theorem plain_of_isLocalName (h : isLocalName (hostname host) = true) :
    (lower host).getLast? ≠ some '.' ∧ inetAton (lower host) = none ∧
      lastLabel (hostname host) = lastLabel (lower host) := by
  obtain h | ⟨front, label, hl, h⟩ := isLocalName_cases h
  · have hpercent := percent_notMem_of_localhosts h
    rw [mem_hostname (by decide)] at hpercent
    rw [hostname_of_notMem hpercent] at h ⊢
    revert h
    generalize lower host = name
    revert name
    decide
  · obtain ⟨hdot, hletter, hlower, hne⟩ := labels_plain label hl
    have hfolded : lower host = lower front ++ '.' :: label := by
      rw [← lower_hostname, h, lower_append]
      exact congrArg _ (congrArg _ hlower)
    rw [h, hfolded, lastLabel_append _ hdot, lastLabel_append _ hdot]
    refine ⟨?_, inetAton_eq_none ?_, rfl⟩
    · obtain ⟨c, hc⟩ := Option.ne_none_iff_exists'.mp hne
      rw [List.getLast?_append, List.getLast?_cons, hc]
      intro he
      exact hdot (Option.some.inj he ▸ List.mem_of_getLast? hc)
    · exact List.mem_append_right _ (List.mem_cons_of_mem _ hletter)

theorem isLocalName_hostname (h : isLocalName (lower host) = true)
    (hlast : lastLabel (hostname host) = lastLabel (lower host)) : isLocalName (hostname host) = true := by
  obtain hl | ⟨front, label, hl, hname⟩ := isLocalName_cases h
  · have hpercent := percent_notMem_of_localhosts hl
    rw [mem_lower (by decide)] at hpercent
    rwa [hostname_of_notMem hpercent]
  · obtain ⟨hdot, -, hlower, -⟩ := labels_plain label hl
    rw [hname, lastLabel_append _ hdot] at hlast
    obtain he | ⟨front', he⟩ := lastLabel_cases (hostname host)
    · rw [hlast] at he
      rw [← lower_hostname, ← he, hlower] at hname
      have hlength := congrArg List.length hname
      rw [List.length_append, List.length_cons] at hlength
      omega
    · rw [hlast] at he
      rw [he]
      exact isLocalName_append _ hl

/-- What `ipaddress` reads, the resolver reads in the same way. -/
theorem denotesLocal_of_ipAddress {ip : Address} (h : ipAddress (hostname host) = some ip) :
    denotesLocal host = forbidden ip := by
  simp only [ipAddress] at h
  simp only [denotesLocal]
  cases h4 : parseIpv4 (hostname host) with
  | some n =>
      rw [h4] at h
      obtain rfl := Option.some.inj h
      have hdigits := digit_of_parseIpv4 h4
      have hpercent : '%' ∉ host := by
        rw [← mem_hostname (by decide)]
        exact fun hm => absurd (hdigits _ hm) (by decide)
      rw [hostname_of_notMem hpercent] at h4 hdigits
      have h6 : parseIpv6 (lower host) = none := by
        cases h6 : parseIpv6 (lower host) with
        | none => rfl
        | some n => exact absurd (hdigits _ (colon_of_parseIpv6 h6)) (by decide)
      have hdot : withoutDot (lower host) = lower host := by
        rw [withoutDot, if_neg]
        intro hlast
        rw [← List.dropLast_append_getLast? _ hlast, parseIpv4_append_dot] at h4
        cases h4
      simp only [h6, hdot, inetAton_of_parseIpv4 h4]
  | none =>
      rw [h4] at h
      obtain ⟨n, h6, rfl⟩ := Option.map_eq_some_iff.mp h
      rw [parseIpv6_hostname] at h6
      simp only [h6]

/-- What the resolver takes for a local host is refused unless it is misspelled. -/
theorem blocked_iff (hb : unbracket (hostname host) = hostname host) (hd : denotesLocal host = true) :
    isHardBlockedSourceHost (hostname host) = true ↔ ¬Misspelled host := by
  rw [hardBlocked_eq hb]
  cases hip : ipAddress (hostname host) with
  | some ip =>
      rw [denotesLocal_of_ipAddress hip] at hd
      simp only [Option.any_some, hd, Bool.or_true, true_iff]
      rintro ⟨hnone, -⟩
      rw [hip] at hnone
      cases hnone
  | none =>
      rw [Option.any_none, Bool.or_false]
      constructor
      · rintro h ⟨-, hspelling⟩
        obtain ⟨hdot, haton, hlast⟩ := plain_of_isLocalName h
        obtain h | h | h := hspelling
        · exact hdot h
        · rw [haton] at h
          cases h
        · exact h hlast
      · intro h
        have hplain : (lower host).getLast? ≠ some '.' ∧ inetAton (lower host) = none ∧
            lastLabel (hostname host) = lastLabel (lower host) := by
          refine ⟨fun he => h ⟨hip, .inl he⟩, ?_, ?_⟩
          · by_contra he
            exact h ⟨hip, .inr (.inl (Option.isSome_iff_ne_none.mpr he))⟩
          · by_contra he
            exact h ⟨hip, .inr (.inr he)⟩
        have h6 : parseIpv6 (lower host) = none := by
          rw [← parseIpv6_hostname]
          simp only [ipAddress] at hip
          split at hip
          · cases hip
          · exact Option.map_eq_none_iff.mp hip
        simp only [denotesLocal, h6, withoutDot, if_neg hplain.1, hplain.2.1] at hd
        exact isLocalName_hostname hd hplain.2.2

theorem blocked_hop_iff {hop : Hop} (hd : denotesLocal hop.request.host = true) :
    isHardBlockedSourceHost (hostname (checkedHost hop.url)) = true ↔ ¬Disguised hop := by
  rw [Disguised, and_iff_right hd]
  split_ifs with hsame
  · refine blocked_iff (unbracket_checkedHost _) ?_
    rwa [denotesLocal, ← hsame]
  · rw [Bool.not_eq_false]

end Blocking

section Requests

variable {refusal : List Char → Option String} {source url : List Char} {redirects : List (List Char)} {hop : Hop}

def Checked (url : List Char) : Prop :=
  (splitScheme (cleaned url)).1 = "https".toList ∧
    isHardBlockedSourceHost (hostname (checkedHost url)) = false

theorem checked_redirectRequest (h : redirectRequest refusal url = .ok ()) : Checked url := by
  rw [redirectRequest] at h
  split at h
  · cases h
  · rename_i parsed hp
    obtain rfl := of_urlparse hp
    split_ifs at h with hs hb
    exact ⟨not_not.mp hs, Bool.eq_false_iff.mpr hb⟩

theorem checked_openSource (h : openSource refusal url = .ok ()) : Checked url := by
  rw [openSource] at h
  split at h
  · cases h
  · rename_i parsed hp
    obtain rfl := of_urlparse hp
    split_ifs at h with hs he hb
    refine ⟨?_, Bool.eq_false_iff.mpr hb⟩
    by_contra hne
    exact hs ⟨he, hne⟩

def Opened (hop : Hop) : Prop :=
  Checked hop.url ∧ ∃ text, OpenedAs hop.url text ∧ request text = some hop.request

theorem opened_follow (h : hop ∈ follow refusal redirects) : Opened hop := by
  induction redirects with
  | nil => cases h
  | cons newurl newurls ih =>
      rw [follow] at h
      split at h
      · rename_i request hcheck hopen
        rcases List.mem_cons.mp h with rfl | h
        · exact ⟨checked_redirectRequest hcheck, _, fun a => prefix_of_quoteSpaces, hopen⟩
        · exact ih h
      · cases h

theorem opened_requests (h : hop ∈ requests refusal source redirects) : Opened hop := by
  rw [requests] at h
  split at h
  · rename_i request hcheck hopen
    rcases List.mem_cons.mp h with rfl | h
    · exact ⟨checked_openSource hcheck, _, fun a _ => id, hopen⟩
    · exact opened_follow h
  · cases h

theorem allowed_iff_of_opened (h : Opened hop) : Allowed hop.request ↔ ¬Disguised hop := by
  obtain ⟨⟨hscheme, hpassed⟩, text, ho, hr⟩ := h
  rw [Allowed, and_iff_right (type_of_request ho (cleaned_of_scheme hscheme) hr)]
  refine ⟨fun hd hdis => ?_, fun hdis => ?_⟩
  · exact Bool.false_ne_true (hd.symm.trans hdis.1)
  · by_contra hd
    have hblocked := (blocked_hop_iff (Bool.not_eq_false _ ▸ hd)).mpr hdis
    exact Bool.false_ne_true (hpassed.symm.trans hblocked)

/-- The requests of an import go to allowed hosts exactly when none that the chain gets
to is disguised. -/
theorem requests_allowed_iff (refusal : List Char → Option String) (source : List Char)
    (redirects : List (List Char)) :
    (∀ hop ∈ requests refusal source redirects, Allowed hop.request) ↔
      ∀ hop ∈ requests refusal source redirects, ¬Disguised hop :=
  forall₂_congr fun _ h => allowed_iff_of_opened (opened_requests h)

def provider : List Char := "https://vpn.example.com/".toList

def shortLoopback : List Char := "https://127.1/".toList

theorem request_to_loopback : ¬ ∀ (refusal : List Char → Option String) (source : List Char)
    (redirects : List (List Char)), ∀ hop ∈ requests refusal source redirects, Allowed hop.request := by
  intro h
  have hmem : ⟨shortLoopback, "https".toList, "127.1".toList⟩ ∈
      requests (fun _ => none) provider [shortLoopback] := by
    have hsource : openSource (fun _ => none) provider = .ok () := rfl
    have hopen : request provider = some ⟨"https".toList, "vpn.example.com".toList⟩ := by decide
    have hredirect : redirectRequest (fun _ => none) shortLoopback = .ok () := rfl
    have hnext : request (quoteSpaces shortLoopback) = some ⟨"https".toList, "127.1".toList⟩ := by decide
    simp only [requests, hsource, hopen, follow, hredirect, hnext]
    exact List.mem_cons_of_mem _ List.mem_cons_self
  have hd := (h _ provider [shortLoopback] _ hmem).2
  revert hd
  decide

end Requests

end EovpnPro.SourceHosts
