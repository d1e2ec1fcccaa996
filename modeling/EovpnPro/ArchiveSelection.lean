import EovpnPro.ArchiveExtraction

namespace EovpnPro.ArchiveSelection

open ConfigSource ArchiveExtraction

def lowered (name : String) : List Char := name.toList.map Char.toLower

def endsOvpn (name : String) : Bool := decide (".ovpn".toList <:+ lowered name)

def directory (path : String) : String :=
  String.ofList ((path.toList.reverse.dropWhile (fun c => decide (c ≠ '/'))).drop 1).reverse

/-- The file that `validate_and_load` makes the CA setting. -/
def caName (certs : List String) : Option String := certs.getLast?.map basename

section Names

variable (unicodeAlnum : Char → Bool)

def proper (name : String) : Bool := endsOvpn name || crtRegex unicodeAlnum name

def misplaced (path : String) : Bool :=
  crtRegex unicodeAlnum (directory path) || decide (".ovpn\n".toList <:+ lowered path)

structure Chosen (r : Result) : Prop where
  files : ∀ o ∈ r.outputs, proper unicodeAlnum o.name = true
  certificates : ∀ certs, r.result = .ok certs → ∀ cert ∈ certs, endsOvpn cert = false
  authority : ∀ certs, r.result = .ok certs → ∀ name ∈ caName certs, endsOvpn name = false

end Names

def reachedLate : List ZipEntry → List ZipEntry
  | [] => []
  | info :: infos =>
      info :: if info.closeFails || (info.chunks.isEmpty && info.readFails) then reachedLate infos else []

def reached (room : Nat) : List ZipEntry → List ZipEntry
  | [] => []
  | info :: infos =>
      info :: if size info.chunks ≤ room then reached (room - size info.chunks) infos
        else if info.closeFails then reachedLate infos else []

section Matching

def certWords : List String := [".crt", ".pem", ".ca", "cert"]

def CertIn (unicodeAlnum : Char → Bool) (text : List Char) : Prop :=
  ∃ front word rest, word ∈ certWords ∧ text = front ++ (word.toList ++ rest) ∧
    boundary unicodeAlnum rest = true

variable {unicodeAlnum : Char → Bool} {name path : String}

theorem crtRegex_iff : crtRegex unicodeAlnum name = true ↔ CertIn unicodeAlnum (lowered name) := by
  simp only [crtRegex, List.any_eq_true, List.mem_tails, Bool.and_eq_true, List.isPrefixOf_iff_prefix]
  refine ⟨?_, ?_⟩
  · rintro ⟨_, ⟨front, hf⟩, word, hw, ⟨rest, rfl⟩, hb⟩
    rw [← String.length_toList, List.drop_left] at hb
    exact ⟨front, word, rest, hw, hf.symm, hb⟩
  · rintro ⟨front, word, rest, hw, hf, hb⟩
    refine ⟨word.toList ++ rest, ⟨front, hf.symm⟩, word, hw, List.prefix_append _ _, ?_⟩
    rwa [← String.length_toList, List.drop_left]

theorem certWords_plain : ∀ word ∈ certWords, word.toList ≠ [] ∧ '/' ∉ word.toList := by decide

theorem boundary_slash (rest : List Char) : boundary unicodeAlnum ('/' :: rest) = true := by
  have hslash : isAlnum unicodeAlnum '/' = false := rfl
  rw [boundary, hslash, Bool.not_false]

theorem certIn_append (front back : List Char) :
    CertIn unicodeAlnum (front ++ '/' :: back) ↔ CertIn unicodeAlnum front ∨ CertIn unicodeAlnum back := by
  refine ⟨?_, ?_⟩
  · rintro ⟨before, word, rest, hw, heq, hb⟩
    obtain ⟨hne, hslash⟩ := certWords_plain word hw
    rcases List.append_eq_append_iff.mp heq with ⟨more, rfl, hmore⟩ | ⟨more, rfl, hmore⟩
    · cases more with
      | nil =>
          obtain ⟨c, word', hword⟩ := List.exists_cons_of_ne_nil hne
          rw [hword] at hmore
          refine absurd ?_ hslash
          rw [hword, (List.cons.inj hmore).1]
          exact List.mem_cons_self
      | cons c more =>
          obtain ⟨-, rfl⟩ := List.cons.inj hmore
          exact .inr ⟨more, word, rest, hw, rfl, hb⟩
    · rcases List.append_eq_append_iff.mp hmore with ⟨last, rfl, hlast⟩ | ⟨last, hlast, hrest⟩
      · refine .inl ⟨before, word, last, hw, rfl, ?_⟩
        cases last with
        | nil => rfl
        | cons c last => rwa [hlast] at hb
      · cases last with
        | nil =>
            rw [List.append_nil] at hlast
            exact .inl ⟨before, word, [], hw, by rw [hlast, List.append_nil], rfl⟩
        | cons c last =>
            refine absurd ?_ hslash
            rw [hlast, (List.cons.inj hrest).1]
            exact List.mem_append_right _ List.mem_cons_self
  · rintro (⟨before, word, rest, hw, rfl, hb⟩ | ⟨before, word, rest, hw, rfl, hb⟩)
    · refine ⟨before, word, rest ++ '/' :: back, hw, by simp, ?_⟩
      cases rest with
      | nil => exact boundary_slash back
      | cons c rest => exact hb
    · exact ⟨front ++ '/' :: before, word, rest, hw, by simp, hb⟩

theorem path_cases (path : String) :
    path.toList = (directory path).toList ++ '/' :: (basename path).toList ∨
      basename path = path ∧ directory path = "" := by
  let past : Char → Bool := fun c => decide (c ≠ '/')
  have hsplit :
      path.toList.reverse.takeWhile past ++ path.toList.reverse.dropWhile past = path.toList.reverse :=
    List.takeWhile_append_dropWhile
  cases hd : path.toList.reverse.dropWhile past with
  | nil =>
      rw [hd, List.append_nil] at hsplit
      refine .inr ⟨?_, ?_⟩
      · rw [basename, hsplit, List.reverse_reverse, String.ofList_toList]
      · rw [directory, hd]
        rfl
  | cons c rest =>
      have hc : c = '/' := by
        have hnot := List.head?_dropWhile_not past path.toList.reverse
        rw [hd] at hnot
        simpa [past] using hnot
      rw [hd, hc] at hsplit
      refine .inl ?_
      have hpath : path.toList = (path.toList.reverse.takeWhile past ++ '/' :: rest).reverse := by
        rw [hsplit, List.reverse_reverse]
      rw [List.reverse_append, List.reverse_cons, List.append_assoc] at hpath
      rw [directory, basename, String.toList_ofList, String.toList_ofList, hd]
      exact hpath

theorem lowered_path (h : path.toList = (directory path).toList ++ '/' :: (basename path).toList) :
    lowered path = lowered (directory path) ++ '/' :: lowered (basename path) := by
  rw [lowered, h, List.map_append, List.map_cons]
  rfl

theorem crtRegex_path : crtRegex unicodeAlnum path = true ↔
    crtRegex unicodeAlnum (directory path) = true ∨ crtRegex unicodeAlnum (basename path) = true := by
  rcases path_cases path with h | ⟨hb, hd⟩
  · rw [crtRegex_iff, lowered_path h, certIn_append, crtRegex_iff, crtRegex_iff]
  · have hempty : crtRegex unicodeAlnum "" = false := rfl
    rw [hb, hd, hempty]
    simp

theorem endsOvpn_basename (h : ".ovpn".toList <:+ lowered path) : endsOvpn (basename path) = true := by
  rcases path_cases path with hp | ⟨hb, -⟩
  · rw [lowered_path hp] at h
    rcases List.suffix_or_suffix_of_suffix h (List.suffix_append _ _) with hs | hs
    · rcases List.suffix_cons_iff.mp hs with hs | hs
      · exact absurd hs (by simp)
      · exact decide_eq_true hs
    · have hslash : '/' ∈ ".ovpn".toList := hs.subset List.mem_cons_self
      exact absurd hslash (by decide)
  · rw [hb]
    exact decide_eq_true h

theorem proper_of_selected (h : (ovpnRegex path || crtRegex unicodeAlnum path) = true)
    (hl : misplaced unicodeAlnum path = true → proper unicodeAlnum (basename path) = true) :
    proper unicodeAlnum (basename path) = true := by
  rcases Bool.or_eq_true_iff.mp h with h | h
  · rcases Bool.or_eq_true_iff.mp h with h | h
    · rw [proper, endsOvpn_basename (of_decide_eq_true h), Bool.true_or]
    · exact hl (by rw [misplaced]; exact Bool.or_eq_true_iff.mpr (.inr h))
  · rcases crtRegex_path.mp h with h | h
    · exact hl (by rw [misplaced, h, Bool.true_or])
    · rw [proper, h, Bool.or_true]

theorem basename_basename (path : String) : basename (basename path) = basename path := by
  rcases path_cases (basename path) with h | ⟨h, -⟩
  · refine absurd ?_ (slash_notMem_basename path)
    rw [h]
    exact List.mem_append_right _ List.mem_cons_self
  · exact h

end Matching

section Loop

variable {unicodeAlnum : Char → Bool} {d : Destination}

def remaining (x : Extraction) (infos : List ZipEntry) : List ZipEntry :=
  if x.bomb then reachedLate infos else reached (maxExtractedTotalBytes - x.total) infos

theorem remaining_cons (unicodeAlnum : Char → Bool) {x : Extraction} {info : ZipEntry} (seen : List String)
    (name : String) (infos : List ZipEntry) (h : Counted x) :
    remaining x (info :: infos) = info ::
      if (extractEntry unicodeAlnum { x with seen } info name).2 then []
      else remaining (extractEntry unicodeAlnum { x with seen } info name).1 infos := by
  rw [extractEntry_eq]
  cases hb : x.bomb with
  | true =>
      simp only [remaining, hb, if_true, Bool.true_or, Bool.and_true, reachedLate, failed]
      rcases hc : info.chunks with _ | ⟨chunk, chunks⟩
      · simp only [writeChunks, List.isEmpty_nil, Bool.not_false, Bool.and_true, Bool.true_and]
        cases info.closeFails <;> cases info.readFails <;> rfl
      · simp only [writeChunks_of_lt (h.lt hb)]
        cases info.closeFails <;> simp
  | false =>
      obtain ⟨-, htotal, he, -⟩ := writeChunks_of_le info.chunks (h.le hb)
      simp only [remaining, hb, Bool.false_eq_true, if_false, Bool.false_or, failed, htotal, reached]
      by_cases hs : size info.chunks ≤ maxExtractedTotalBytes - x.total
      · have hf : (writeChunks x.total info.chunks).2.2 = false :=
          Bool.eq_false_iff.mpr fun ht => Nat.not_lt.mpr hs (he.mp ht)
        simp only [hf, if_pos hs, Bool.and_false, Bool.false_eq_true, if_false, upTo_of_le hs,
          ← Nat.sub_sub]
      · have ht := he.mpr (Nat.not_le.mp hs)
        simp only [ht, if_neg hs, Bool.not_true, Bool.and_false, Bool.or_false, Bool.and_true, if_true]
        cases info.closeFails <;> simp

theorem outputs_loop (s : Extracting) (infos : List ZipEntry) (h : Counted s.x)
    (hn : ∀ o ∈ s.outputs, o.name = basename o.info.filename) :
    (∀ o ∈ (loop unicodeAlnum d s infos).outputs, o.name = basename o.info.filename) ∧
      (loop unicodeAlnum d s infos).outputs.map Output.info =
        s.outputs.map Output.info ++ remaining s.x (opened d s.x.seen infos) := by
  induction infos generalizing s with
  | nil =>
      have hz : remaining s.x [] = [] := by simp [remaining, reachedLate, reached]
      exact ⟨hn, by rw [opened, hz, List.append_nil]; rfl⟩
  | cons info infos ih =>
      have hc : Counted (round unicodeAlnum d s info).1.x := counted_round h
      simp only [loop]
      obtain ⟨seen, hr, -, ho⟩ | ⟨name, hname, -, -, ho, hr⟩ := round_cases unicodeAlnum d s info
      · rw [hr] at hc ⊢
        rw [if_neg Bool.false_ne_true, ho]
        exact ih _ hc hn
      · rw [hr] at hc ⊢
        rw [ho, remaining_cons unicodeAlnum (name :: s.x.seen) name _ h]
        have hseen : (extractEntry unicodeAlnum { s.x with seen := name :: s.x.seen } info name).1.seen =
            name :: s.x.seen := by rw [extractEntry_eq]
        generalize extractEntry unicodeAlnum _ info name = entry at hc hseen ⊢
        let opening : Output :=
          { name, path := d.path ++ [name], info, written := reaching s.x.total info }
        have hnames : ∀ o ∈ s.outputs ++ [opening], o.name = basename o.info.filename := by
          intro o ho
          rcases List.mem_append.mp ho with ho | ho
          · exact hn o ho
          · obtain rfl := List.mem_singleton.mp ho
            exact hname
        obtain ⟨x, _ | _⟩ := entry
        · obtain ⟨hall, hinfos⟩ := ih _ hc hnames
          simp only [Bool.false_eq_true, if_false]
          refine ⟨hall, hinfos.trans ?_⟩
          rw [List.map_append, List.append_assoc, hseen]
          rfl
        · exact ⟨hnames, List.map_append⟩

theorem size_append (chunks more : List Bytes) : size (chunks ++ more) = size chunks + size more := by
  rw [size, List.map_append, List.sum_append, size, size]

variable (unicodeAlnum) in
theorem bomb_extractEntry {x : Extraction} (info : ZipEntry) (seen : List String) (name : String)
    (h : Counted x) (infos : List ZipEntry) :
    let y := (extractEntry unicodeAlnum { x with seen } info name).1
    (y.bomb = false ∧ size (infos.flatMap ZipEntry.chunks) ≤ maxExtractedTotalBytes - y.total) ↔
      x.bomb = false ∧
        size ((info :: infos).flatMap ZipEntry.chunks) ≤ maxExtractedTotalBytes - x.total := by
  rw [extractEntry_eq]
  dsimp only
  cases hb : x.bomb with
  | true => simp
  | false =>
      obtain ⟨-, htotal, he, -⟩ := writeChunks_of_le info.chunks (h.le hb)
      rw [Bool.false_or, htotal, List.flatMap_cons, size_append, Bool.eq_false_iff, ne_eq, he, Nat.not_lt]
      by_cases hs : size info.chunks ≤ maxExtractedTotalBytes - x.total
      · rw [upTo_of_le hs, and_iff_right hs, and_iff_right rfl]
        omega
      · exact iff_of_false (fun hc => hs hc.1) fun hc => hs (by omega)

variable (unicodeAlnum) in
theorem stop_bomb (x : Extraction) (info : ZipEntry) (name : String)
    (h : (extractEntry unicodeAlnum x info name).2 = true) :
    (extractEntry unicodeAlnum x info name).1.bomb = true := by
  rw [extractEntry_eq] at h ⊢
  exact (Bool.and_eq_true_iff.mp h).2

theorem bomb_loop (s : Extracting) (infos : List ZipEntry) (h : Counted s.x) :
    (loop unicodeAlnum d s infos).x.bomb = false ↔ s.x.bomb = false ∧
      size ((opened d s.x.seen infos).flatMap ZipEntry.chunks) ≤ maxExtractedTotalBytes - s.x.total := by
  induction infos generalizing s with
  | nil => simp [loop, opened, size]
  | cons info infos ih =>
      have hc : Counted (round unicodeAlnum d s info).1.x := counted_round h
      simp only [loop]
      obtain ⟨seen, hr, -, ho⟩ | ⟨name, -, -, -, ho, hr⟩ := round_cases unicodeAlnum d s info
      · rw [hr] at hc ⊢
        rw [if_neg Bool.false_ne_true, ho]
        exact ih _ hc
      · rw [hr] at hc ⊢
        have hstep := bomb_extractEntry unicodeAlnum info (name :: s.x.seen) name h
          (opened d (name :: s.x.seen) infos)
        have hstop := stop_bomb unicodeAlnum { s.x with seen := name :: s.x.seen } info name
        have hseen : (extractEntry unicodeAlnum { s.x with seen := name :: s.x.seen } info name).1.seen =
            name :: s.x.seen := by rw [extractEntry_eq]
        dsimp only at hstep
        rw [ho, ← hstep]
        generalize extractEntry unicodeAlnum _ info name = entry at hc hseen hstop ⊢
        obtain ⟨x, _ | _⟩ := entry
        · simp only [Bool.false_eq_true, if_false]
          rw [ih _ hc, hseen]
        · have hx : x.bomb = true := hstop rfl
          simp [hx]

def certNames (unicodeAlnum : Char → Bool) (infos : List ZipEntry) : List String :=
  (infos.filter fun info => !(info.closeFails || info.readFails) &&
    crtRegex unicodeAlnum (basename info.filename)).map fun info => basename info.filename

theorem certs_loop (s : Extracting) (infos : List ZipEntry) (h : Counted s.x)
    (hb : (loop unicodeAlnum d s infos).x.bomb = false) :
    (loop unicodeAlnum d s infos).x.certs =
      s.x.certs ++ certNames unicodeAlnum (opened d s.x.seen infos) := by
  induction infos generalizing s with
  | nil => exact (List.append_nil _).symm
  | cons info infos ih =>
      have hc : Counted (round unicodeAlnum d s info).1.x := counted_round h
      simp only [loop] at hb ⊢
      obtain ⟨seen, hr, -, ho⟩ | ⟨name, hname, -, -, ho, hr⟩ := round_cases unicodeAlnum d s info
      · rw [hr] at hb hc ⊢
        rw [if_neg Bool.false_ne_true] at hb ⊢
        rw [ho]
        exact ih _ hc hb
      · rw [hr] at hb hc ⊢
        have hstop := stop_bomb unicodeAlnum { s.x with seen := name :: s.x.seen } info name
        split_ifs at hb ⊢ with he
        · rw [hstop he] at hb
          cases hb
        · obtain ⟨hbomb, -⟩ := (bomb_loop _ _ hc).mp hb
          rw [ih _ hc hb, ho]
          rw [extractEntry_eq] at hbomb ⊢
          obtain ⟨-, hexceeded⟩ := Bool.or_eq_false_iff.mp hbomb
          have hf : failed s.x.total info = (info.closeFails || info.readFails) := by
            rw [failed, hexceeded, Bool.not_false, Bool.and_true]
          dsimp only at hbomb ⊢
          rw [hf, hbomb, Bool.not_false, Bool.and_true, certNames, certNames, List.filter_cons, ← hname]
          split_ifs
          · rw [List.map_cons, List.append_assoc, hname]
            rfl
          · rfl

end Loop

section Archive

variable (unicodeAlnum : Char → Bool) (d : Destination) (dir : ConfigDir) (infos : List ZipEntry)

theorem counted_start : Counted ({ dir } : Extraction) := Nat.zero_le _

theorem outputs_extractArchive :
    (∀ o ∈ (extractArchive unicodeAlnum d dir infos).outputs, o.name = basename o.info.filename) ∧
      (extractArchive unicodeAlnum d dir infos).outputs.map Output.info =
        reached maxExtractedTotalBytes (openedEntries d unicodeAlnum infos) := by
  by_cases hlong : infos.length > maxZipEntries
  · simp [extractArchive, openedEntries, if_pos hlong, reached]
  · simp only [extractArchive, openedEntries, if_neg hlong]
    exact outputs_loop { x := { dir } } (targets unicodeAlnum infos) (counted_start dir) (by simp)

theorem result_extractArchive (certs : List String) :
    (extractArchive unicodeAlnum d dir infos).result = .ok certs ↔ infos.length ≤ maxZipEntries ∧
      size ((openedEntries d unicodeAlnum infos).flatMap ZipEntry.chunks) ≤ maxExtractedTotalBytes ∧
        certs = certNames unicodeAlnum (openedEntries d unicodeAlnum infos) := by
  by_cases hlong : infos.length > maxZipEntries
  · simp [extractArchive, if_pos hlong, Nat.not_le.mpr hlong]
  · have hbomb : (loop unicodeAlnum d { x := { dir } } (targets unicodeAlnum infos)).x.bomb = false ↔
        size ((opened d [] (targets unicodeAlnum infos)).flatMap ZipEntry.chunks) ≤ maxExtractedTotalBytes :=
      (bomb_loop _ _ (counted_start dir)).trans (and_iff_right rfl)
    have hcerts (hb : (loop unicodeAlnum d { x := { dir } } (targets unicodeAlnum infos)).x.bomb = false) :
        (loop unicodeAlnum d { x := { dir } } (targets unicodeAlnum infos)).x.certs =
          certNames unicodeAlnum (opened d [] (targets unicodeAlnum infos)) :=
      certs_loop _ _ (counted_start dir) hb
    simp only [extractArchive, openedEntries, if_neg hlong]
    cases hb : (loop unicodeAlnum d { x := { dir } } (targets unicodeAlnum infos)).x.bomb with
    | true =>
        rw [hb] at hbomb
        refine iff_of_false (fun h => by cases h) fun h => ?_
        cases hbomb.mpr h.2.1
    | false =>
        rw [and_iff_right (Nat.not_lt.mp hlong), and_iff_right (hbomb.mp hb), hcerts hb]
        exact ⟨fun h => (Except.ok.inj h).symm, fun h => by rw [h]; rfl⟩

variable {d infos} in
theorem mem_targets_of_opened {seen : List String} {infos : List ZipEntry} {info : ZipEntry}
    (h : info ∈ opened d seen infos) : info ∈ infos := by
  induction infos generalizing seen with
  | nil => cases h
  | cons first infos ih =>
      rw [opened] at h
      split_ifs at h
      · exact List.mem_cons_of_mem _ (ih h)
      · rcases List.mem_cons.mp h with rfl | h
        · exact List.mem_cons_self
        · exact List.mem_cons_of_mem _ (ih h)
      · exact List.mem_cons_of_mem _ (ih h)

theorem mem_of_reachedLate {infos : List ZipEntry} {info : ZipEntry} (h : info ∈ reachedLate infos) :
    info ∈ infos := by
  induction infos with
  | nil => cases h
  | cons first infos ih =>
      rw [reachedLate] at h
      rcases List.mem_cons.mp h with rfl | h
      · exact List.mem_cons_self
      · split_ifs at h
        · exact List.mem_cons_of_mem _ (ih h)
        · cases h

theorem mem_of_reached {room : Nat} {infos : List ZipEntry} {info : ZipEntry}
    (h : info ∈ reached room infos) : info ∈ infos := by
  induction infos generalizing room with
  | nil => cases h
  | cons first infos ih =>
      rw [reached] at h
      rcases List.mem_cons.mp h with rfl | h
      · exact List.mem_cons_self
      · split_ifs at h
        · exact List.mem_cons_of_mem _ (ih h)
        · exact List.mem_cons_of_mem _ (mem_of_reachedLate h)
        · cases h

theorem selected_of_opened {info : ZipEntry} (h : info ∈ openedEntries d unicodeAlnum infos) :
    (ovpnRegex info.filename || crtRegex unicodeAlnum info.filename) = true := by
  rw [openedEntries] at h
  split_ifs at h
  · cases h
  · rcases List.mem_append.mp (mem_targets_of_opened h) with h | h
    · rw [(List.mem_filter.mp h).2, Bool.true_or]
    · rw [(List.mem_filter.mp h).2, Bool.or_true]

/-- The archive branch writes what belongs there and returns certificates, exactly when
each entry it gets to that is selected by its directories, or by `.ovpn` and a line feed, has a
proper base name, and, if the sizes fit, no entry that is read to its end has the name of a
certificate that ends in `.ovpn`. -/
theorem chosen_iff :
    Chosen unicodeAlnum (extractArchive unicodeAlnum d dir infos) ↔
      (∀ info ∈ reached maxExtractedTotalBytes (openedEntries d unicodeAlnum infos),
        misplaced unicodeAlnum info.filename = true → proper unicodeAlnum (basename info.filename) = true) ∧
      (size ((openedEntries d unicodeAlnum infos).flatMap ZipEntry.chunks) ≤ maxExtractedTotalBytes →
        ∀ info ∈ openedEntries d unicodeAlnum infos, info.closeFails = false → info.readFails = false →
          crtRegex unicodeAlnum (basename info.filename) = true →
            endsOvpn (basename info.filename) = false) := by
  obtain ⟨hnames, hinfos⟩ := outputs_extractArchive unicodeAlnum d dir infos
  refine ⟨fun h => ⟨fun info hi _ => ?_, fun hsize info hi hclose hread hcert => ?_⟩,
    fun ⟨hfiles, hcerts⟩ => ?_⟩
  · rw [← hinfos] at hi
    obtain ⟨o, ho, rfl⟩ := List.mem_map.mp hi
    rw [← hnames o ho]
    exact h.files o ho
  · have hlong : infos.length ≤ maxZipEntries := by
      by_contra hlong
      rw [openedEntries, if_pos (Nat.not_le.mp hlong)] at hi
      cases hi
    refine h.certificates _ ((result_extractArchive _ _ _ _ _).mpr ⟨hlong, hsize, rfl⟩) _ ?_
    refine List.mem_map.mpr ⟨info, List.mem_filter.mpr ⟨hi, ?_⟩, rfl⟩
    rw [hclose, hread, hcert]
    rfl
  · have hall (certs : List String) (hr : (extractArchive unicodeAlnum d dir infos).result = .ok certs) :
        ∀ cert ∈ certs, basename cert = cert ∧ endsOvpn cert = false := by
      obtain ⟨-, hsize, rfl⟩ := (result_extractArchive _ _ _ _ _).mp hr
      intro cert hcert
      obtain ⟨info, hi, rfl⟩ := List.mem_map.mp hcert
      obtain ⟨hi, hkept⟩ := List.mem_filter.mp hi
      simp only [Bool.and_eq_true, Bool.not_eq_true', Bool.or_eq_false_iff] at hkept
      exact ⟨basename_basename _, hcerts hsize info hi hkept.1.1 hkept.1.2 hkept.2⟩
    refine ⟨fun o ho => ?_, fun certs hr cert hcert => (hall certs hr cert hcert).2,
      fun certs hr name hname => ?_⟩
    · have hi : o.info ∈ reached maxExtractedTotalBytes (openedEntries d unicodeAlnum infos) := by
        rw [← hinfos]
        exact List.mem_map_of_mem ho
      rw [hnames o ho]
      exact proper_of_selected (selected_of_opened _ _ _ (mem_of_reached hi)) (hfiles o.info hi)
    · obtain ⟨cert, hlast, rfl⟩ := Option.map_eq_some_iff.mp hname
      obtain ⟨hbase, hends⟩ := hall certs hr cert (List.mem_of_getLast? hlast)
      rw [hbase]
      exact hends

def readme : List ZipEntry := [{ filename := "certs.crt/readme.txt" }]

def certConfiguration : List ZipEntry := [{ filename := "cert.ovpn" }]

def imported (infos : List ZipEntry) : Result :=
  extractArchive (fun _ => false) { path := ["import"] } [] infos

/-- A text in a folder named like a certificate, and a configuration named like one. -/
theorem not_chosen : ¬Chosen (fun _ => false) (imported readme) ∧
    ¬Chosen (fun _ => false) (imported certConfiguration) := by
  constructor
  · intro h
    have hall : ((imported readme).outputs.map Output.name).all (proper fun _ => false) = true := by
      rw [List.all_map, List.all_eq_true]
      exact h.files
    have hnot : ((imported readme).outputs.map Output.name).all (proper fun _ => false) = false := by decide
    rw [hnot] at hall
    cases hall
  · intro h
    have hr : (imported certConfiguration).result = .ok ["cert.ovpn"] := rfl
    have hends : endsOvpn "cert.ovpn" = true := by decide
    rw [h.authority _ hr "cert.ovpn" rfl] at hends
    cases hends

end Archive

end EovpnPro.ArchiveSelection
