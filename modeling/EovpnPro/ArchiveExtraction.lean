import Mathlib.Algebra.Ring.Nat
import EovpnPro.ConfigSource

namespace EovpnPro.ArchiveExtraction

open ConfigSource Directories

abbrev Path := List String

/-- `real_destination`, and where the symbolic links in it lead. -/
structure Destination where
  path : Path
  link : String → Option Path := fun _ => none

namespace Destination

variable (d : Destination)

def realpath (name : String) : Path :=
  if name = "." then d.path
  else if name = ".." then d.path.dropLast
  else (d.link name).getD (d.path ++ [name])

/-- `is_safe_path`: the common path of the two is the destination itself. -/
def isSafePath (name : String) : Bool := decide (d.path <+: d.realpath name)

/-- `os.open` of the target path. It refuses directories, and links by `O_NOFOLLOW`. -/
def openOutput (info : ZipEntry) (name : String) : Option Path :=
  if name = "." ∨ name = ".." ∨ (d.link name).isSome = true ∨ info.opens = false then none
  else some (d.path ++ [name])

def view (info : ZipEntry) : ZipEntry :=
  { info with opens := info.opens && (d.link (basename info.filename)).isNone }

end Destination

structure Output where
  name : String
  path : Path
  info : ZipEntry
  written : Bytes

structure Extracting where
  x : Extraction
  outputs : List Output := []

structure Result where
  dir : ConfigDir
  outputs : List Output := []
  result : Except ImportError (List String)

/-- What reaches the output of an entry when `total` bytes were written before. -/
def reaching (total : Nat) (info : ZipEntry) : Bytes :=
  let (written, _, exceeded) := writeChunks total info.chunks
  written ++ if info.readFails && !exceeded then info.torn else []

section Loop

variable (unicodeAlnum : Char → Bool) (d : Destination)

def targets (infos : List ZipEntry) : List ZipEntry :=
  infos.filter (fun info => ovpnRegex info.filename) ++
    infos.filter (fun info => crtRegex unicodeAlnum info.filename)

def round (s : Extracting) (info : ZipEntry) : Extracting × Bool :=
  let name := basename info.filename
  if name = "" ∨ name ∈ s.x.seen then (s, false)
  else
    let x := { s.x with seen := name :: s.x.seen }
    if !d.isSafePath name then ({ s with x }, false)
    else match d.openOutput info name with
      | none => ({ s with x }, false)
      | some path =>
          let written := reaching x.total info
          let (x, stop) := extractEntry unicodeAlnum x info name
          ({ x, outputs := s.outputs ++ [{ name, path, info, written }] }, stop)

def loop (s : Extracting) : List ZipEntry → Extracting
  | [] => s
  | info :: infos =>
      let (s, stop) := round unicodeAlnum d s info
      if stop then s else loop s infos

/-- The archive branch of `download_remote_to_destination`, with the files it opens. -/
def extractArchive (dir : ConfigDir) (infos : List ZipEntry) : Result :=
  if infos.length > maxZipEntries then
    { dir, result := .error (.notZip "Configuration archive contains too many entries.") }
  else
    let s := loop unicodeAlnum d { x := { dir } } (targets unicodeAlnum infos)
    { dir := s.x.dir
      outputs := s.outputs
      result :=
        if s.x.bomb then
          .error (.notZip "Configuration archive appears to be a zip bomb and was rejected.")
        else .ok s.x.certs }

end Loop

def Plain (name : String) : Prop := name ≠ "" ∧ name ≠ "." ∧ name ≠ ".." ∧ '/' ∉ name.toList

def Complete (info : ZipEntry) (content : Bytes) : Prop :=
  info.readFails = false ∧ content = info.chunks.flatten

def writtenBytes (outputs : List Output) : Nat := (outputs.map fun o => o.written.length).sum

/-- What an extraction may do: it writes to direct children of the destination only, to
each once and not too much, and when it returns it leaves whole files and names only
such certificates. -/
structure Contained (d : Destination) (r : Result) : Prop where
  direct : ∀ o ∈ r.outputs, Plain o.name ∧ o.path = d.path ++ [o.name]
  once : (r.outputs.map Output.name).Nodup
  bounded : writtenBytes r.outputs ≤ maxExtractedTotalBytes + chunkSize
  whole : ∀ certs, r.result = .ok certs →
    (∀ o ∈ r.outputs, ∀ content, (o.name, content) ∈ r.dir → Complete o.info content) ∧
      ∀ cert ∈ certs, ∃ o ∈ r.outputs, o.name = cert ∧ ∃ content, (cert, content) ∈ r.dir

section Opened

variable (d : Destination)

/-- The entries whose output is opened if the loop does not end before. -/
def opened (seen : List String) : List ZipEntry → List ZipEntry
  | [] => []
  | info :: infos =>
      let name := basename info.filename
      if name = "" ∨ name ∈ seen then opened seen infos
      else if d.isSafePath name && (d.openOutput info name).isSome then
        info :: opened (name :: seen) infos
      else opened (name :: seen) infos

variable (unicodeAlnum : Char → Bool)

def openedEntries (infos : List ZipEntry) : List ZipEntry :=
  if infos.length > maxZipEntries then [] else opened d [] (targets unicodeAlnum infos)

end Opened

def size (chunks : List Bytes) : Nat := (chunks.map List.length).sum

def upTo (room : Nat) : List Bytes → Nat
  | [] => 0
  | chunk :: chunks =>
      if chunk.length > room then chunk.length else chunk.length + upTo (room - chunk.length) chunks

def stray (info : ZipEntry) : Nat := if info.readFails then info.torn.length else 0

/-- What is still written once the limit has been passed in an output that did not
close: the first chunk of each further one, up to the first that closes. -/
def late : List ZipEntry → Nat
  | [] => 0
  | info :: infos =>
      match info.chunks with
      | [] => stray info + if info.closeFails || info.readFails then late infos else 0
      | chunk :: _ => chunk.length + if info.closeFails then late infos else 0

/-- What failing outputs add to the chunks up to the limit. -/
def loose (room : Nat) : List ZipEntry → Nat
  | [] => 0
  | info :: infos =>
      if size info.chunks ≤ room then stray info + loose (room - size info.chunks) infos
      else if info.closeFails then late infos else 0

section Chunks

variable {total room : Nat} {chunks : List Bytes}

theorem upTo_of_le (h : size chunks ≤ room) : upTo room chunks = size chunks := by
  induction chunks generalizing room with
  | nil => rfl
  | cons chunk chunks ih =>
      simp only [size, List.map_cons, List.sum_cons] at h ih ⊢
      rw [upTo, if_neg (by omega), ih (by omega)]

theorem lt_upTo (h : room < size chunks) : room < upTo room chunks := by
  induction chunks generalizing room with
  | nil => cases h
  | cons chunk chunks ih =>
      simp only [size, List.map_cons, List.sum_cons] at h ih
      simp only [upTo]
      split_ifs with hc
      · exact hc
      · have := ih (show room - chunk.length < _ by omega)
        omega

theorem upTo_append (room : Nat) (chunks more : List Bytes) :
    upTo room (chunks ++ more) =
      if size chunks ≤ room then size chunks + upTo (room - size chunks) more else upTo room chunks := by
  induction chunks generalizing room with
  | nil => simp [size]
  | cons chunk chunks ih =>
      have hsize : size (chunk :: chunks) = chunk.length + size chunks := List.sum_cons
      simp only [List.cons_append, upTo, ih, hsize, ← Nat.sub_sub]
      by_cases hc : chunk.length > room
      · rw [if_pos hc, if_pos hc, if_neg (by omega)]
      · by_cases hs : size chunks ≤ room - chunk.length
        · rw [if_neg hc, if_pos hs, if_pos (by omega), Nat.add_assoc]
        · rw [if_neg hc, if_neg hs, if_neg (by omega), if_neg hc]

theorem writeChunks_of_le (chunks : List Bytes) (h : total ≤ maxExtractedTotalBytes) :
    let room := maxExtractedTotalBytes - total
    (writeChunks total chunks).1.length = upTo room chunks ∧
      (writeChunks total chunks).2.1 = total + upTo room chunks ∧
      ((writeChunks total chunks).2.2 = true ↔ room < size chunks) ∧
      ((writeChunks total chunks).2.2 = false → (writeChunks total chunks).1 = chunks.flatten) := by
  induction chunks generalizing total with
  | nil => simp [writeChunks, upTo, size]
  | cons chunk chunks ih =>
      simp only [writeChunks, upTo, size, List.map_cons, List.sum_cons] at ih ⊢
      by_cases hc : total + chunk.length > maxExtractedTotalBytes
      · rw [if_pos hc, if_pos (by omega)]
        exact ⟨rfl, rfl, ⟨fun _ => by omega, fun _ => rfl⟩, fun he => by cases he⟩
      · have hle : total + chunk.length ≤ maxExtractedTotalBytes := Nat.not_lt.mp hc
        obtain ⟨hw, ht, he, hf⟩ := ih hle
        rw [if_neg hc, if_neg (by omega), ← Nat.sub_sub] at *
        refine ⟨?_, ?_, ?_, ?_⟩
        · rw [List.length_append, hw]
        · rw [ht, Nat.add_assoc]
        · rw [he]
          omega
        · intro hx
          rw [hf hx, List.flatten_cons]

theorem writeChunks_of_lt (h : maxExtractedTotalBytes < total) (chunk : Bytes) (chunks : List Bytes) :
    writeChunks total (chunk :: chunks) = (chunk, total + chunk.length, true) := by
  rw [writeChunks, if_pos (by omega)]

end Chunks

section Round

variable {unicodeAlnum : Char → Bool} {d : Destination} {s : Extracting} {info : ZipEntry}

theorem slash_notMem_basename (path : String) : '/' ∉ (basename path).toList := by
  intro h
  simp only [basename, String.toList_ofList, List.mem_reverse] at h
  have hne := List.all_eq_true.mp List.all_takeWhile _ h
  exact of_decide_eq_true hne rfl

theorem openOutput_eq_some {name : String} {path : Path} (h : d.openOutput info name = some path) :
    name ≠ "." ∧ name ≠ ".." ∧ d.link name = none ∧ info.opens = true ∧ path = d.path ++ [name] := by
  simp only [Destination.openOutput] at h
  split_ifs at h with hn
  simp only [not_or, Option.not_isSome_iff_eq_none, Bool.not_eq_false] at hn
  exact ⟨hn.1, hn.2.1, hn.2.2.1, hn.2.2.2, (Option.some.inj h).symm⟩

theorem isSafePath_of_link_eq_none {name : String} (hd : name ≠ "..") (hl : d.link name = none) :
    d.isSafePath name = true := by
  simp only [Destination.isSafePath, Destination.realpath, hd, hl, decide_eq_true_eq, if_false,
    Option.getD_none]
  split_ifs
  · exact List.prefix_rfl
  · exact List.prefix_append _ _

theorem round_cases (unicodeAlnum : Char → Bool) (d : Destination) (s : Extracting) (info : ZipEntry) :
    (∃ seen, round unicodeAlnum d s info = ({ s with x := { s.x with seen } }, false) ∧
      s.x.seen ⊆ seen ∧ ∀ infos, opened d s.x.seen (info :: infos) = opened d seen infos) ∨
    ∃ name, name = basename info.filename ∧ Plain name ∧ name ∉ s.x.seen ∧
      (∀ infos, opened d s.x.seen (info :: infos) = info :: opened d (name :: s.x.seen) infos) ∧
      round unicodeAlnum d s info =
        ({ x := (extractEntry unicodeAlnum { s.x with seen := name :: s.x.seen } info name).1
           outputs := s.outputs ++
            [{ name, path := d.path ++ [name], info, written := reaching s.x.total info }] },
          (extractEntry unicodeAlnum { s.x with seen := name :: s.x.seen } info name).2) := by
  simp only [round, opened]
  by_cases hn : basename info.filename = "" ∨ basename info.filename ∈ s.x.seen
  · simp only [if_pos hn]
    exact .inl ⟨s.x.seen, rfl, List.Subset.refl _, fun _ => rfl⟩
  · simp only [if_neg hn]
    rw [not_or] at hn
    cases hs : d.isSafePath (basename info.filename) with
    | false => exact .inl ⟨_, rfl, List.subset_cons_self _ _, fun _ => rfl⟩
    | true =>
        cases ho : d.openOutput info (basename info.filename) with
        | none => exact .inl ⟨_, rfl, List.subset_cons_self _ _, fun _ => rfl⟩
        | some path =>
            obtain ⟨hdot, hdots, -, -, rfl⟩ := openOutput_eq_some ho
            exact .inr ⟨_, rfl, ⟨hn.1, hdot, hdots, slash_notMem_basename _⟩, hn.2, fun _ => rfl, rfl⟩

def failed (total : Nat) (info : ZipEntry) : Bool :=
  info.closeFails || (info.readFails && !(writeChunks total info.chunks).2.2)

theorem extractEntry_eq (unicodeAlnum : Char → Bool) (x : Extraction) (info : ZipEntry) (name : String) :
    extractEntry unicodeAlnum x info name =
      ({ dir :=
          if failed x.total info && info.removed then delete x.dir name
          else put x.dir name (reaching x.total info)
         certs :=
          if !failed x.total info && !(x.bomb || (writeChunks x.total info.chunks).2.2) &&
            crtRegex unicodeAlnum name then x.certs ++ [name] else x.certs
         total := (writeChunks x.total info.chunks).2.1
         seen := x.seen
         bomb := x.bomb || (writeChunks x.total info.chunks).2.2 },
        !failed x.total info && (x.bomb || (writeChunks x.total info.chunks).2.2)) := by
  have hfailed : (info.closeFails || (info.readFails && !(writeChunks x.total info.chunks).2.2)) =
    failed x.total info := rfl
  simp only [extractEntry, hfailed]
  obtain hf | hf := Bool.eq_false_or_eq_true (failed x.total info)
  · simp only [hf, if_true, Bool.true_and, Bool.not_true, Bool.false_and, Bool.false_eq_true, if_false]
    rfl
  · simp only [hf, Bool.false_eq_true, if_false, Bool.false_and, Bool.not_false, Bool.true_and]
    obtain hb | hb := Bool.eq_false_or_eq_true (x.bomb || (writeChunks x.total info.chunks).2.2)
    · simp only [hb, if_true, Bool.not_true, Bool.false_and, Bool.false_eq_true, if_false]
      rfl
    · simp only [hb, Bool.false_eq_true, if_false, Bool.not_false, Bool.true_and]
      rfl

variable (d) in
structure Sound (s : Extracting) : Prop where
  direct : ∀ o ∈ s.outputs, Plain o.name ∧ o.path = d.path ++ [o.name]
  once : (s.outputs.map Output.name).Nodup
  seen : ∀ o ∈ s.outputs, o.name ∈ s.x.seen
  whole : s.x.bomb = false →
    ∀ o ∈ s.outputs, ∀ content, (o.name, content) ∈ s.x.dir → Complete o.info content
  certs : ∀ cert ∈ s.x.certs, ∃ o ∈ s.outputs, o.name = cert ∧ ∃ content, (cert, content) ∈ s.x.dir

theorem reaching_complete {total : Nat} (ht : total ≤ maxExtractedTotalBytes)
    (hf : failed total info = false) (he : (writeChunks total info.chunks).2.2 = false) :
    Complete info (reaching total info) := by
  simp only [failed, he, Bool.not_false, Bool.and_true, Bool.or_eq_false_iff] at hf
  refine ⟨hf.2, ?_⟩
  simp only [reaching, hf.2, Bool.false_and, Bool.false_eq_true, if_false, List.append_nil]
  exact (writeChunks_of_le _ ht).2.2.2 he

def Counted (x : Extraction) : Prop :=
  if x.bomb then maxExtractedTotalBytes < x.total else x.total ≤ maxExtractedTotalBytes

theorem Counted.le {x : Extraction} (h : Counted x) (hb : x.bomb = false) :
    x.total ≤ maxExtractedTotalBytes := by
  rwa [Counted, if_neg (Bool.eq_false_iff.mp hb)] at h

theorem Counted.lt {x : Extraction} (h : Counted x) (hb : x.bomb = true) :
    maxExtractedTotalBytes < x.total := by
  rwa [Counted, if_pos hb] at h

theorem counted_extractEntry {x : Extraction} {seen : List String} {name : String} (h : Counted x) :
    Counted (extractEntry unicodeAlnum { x with seen } info name).1 := by
  rw [extractEntry_eq]
  cases hb : x.bomb with
  | false =>
      obtain ⟨-, htotal, hexceeded, -⟩ := writeChunks_of_le info.chunks (h.le hb)
      have ht := h.le hb
      simp only [Counted, Bool.false_or, hexceeded, htotal]
      split_ifs with hs
      · have := lt_upTo hs
        omega
      · have := upTo_of_le (Nat.not_lt.mp hs)
        omega
  | true =>
      have ht := h.lt hb
      simp only [Counted, Bool.true_or, if_true]
      rcases info.chunks with _ | ⟨chunk, chunks⟩
      · exact ht
      · rw [writeChunks_of_lt ht]
        exact Nat.lt_add_right _ ht

theorem counted_round (h : Counted s.x) : Counted (round unicodeAlnum d s info).1.x := by
  obtain ⟨seen, hr, -, -⟩ | ⟨name, -, -, -, -, hr⟩ := round_cases unicodeAlnum d s info <;> rw [hr]
  · exact h
  · exact counted_extractEntry h

theorem extractEntry_dir (unicodeAlnum : Char → Bool) (x : Extraction) (seen : List String)
    (name : String) (hr : info.removed = true) :
    (∀ file : String × Bytes, file.1 ≠ name →
      (file ∈ (extractEntry unicodeAlnum { x with seen } info name).1.dir ↔ file ∈ x.dir)) ∧
    ∀ content, (name, content) ∈ (extractEntry unicodeAlnum { x with seen } info name).1.dir ↔
      failed x.total info = false ∧ content = reaching x.total info := by
  rw [extractEntry_eq]
  cases hf : failed x.total info with
  | true =>
      simp only [hr, Bool.and_self, if_true]
      exact ⟨fun file hn => mem_delete.trans (and_iff_left hn),
        fun content => ⟨fun h => absurd rfl (mem_delete.mp h).2, fun h => by cases h.1⟩⟩
  | false =>
      simp only [Bool.false_and, Bool.false_eq_true, if_false, true_and]
      refine ⟨fun file hn => ?_, fun content => ?_⟩
      · rw [mem_put, and_iff_left hn]
        exact or_iff_left fun h => hn (congrArg Prod.fst h)
      · rw [mem_put]
        simp

theorem round_sound (hr : info.removed = true) (hc : Counted s.x) (h : Sound d s) :
    Sound d (round unicodeAlnum d s info).1 := by
  obtain ⟨seen, hround, hseen, -⟩ | ⟨name, -, hplain, hnew, -, hround⟩ :=
    round_cases unicodeAlnum d s info <;> rw [hround]
  · exact ⟨h.direct, h.once, fun o ho => hseen (h.seen o ho), h.whole, h.certs⟩
  · obtain ⟨hothers, hown⟩ := extractEntry_dir unicodeAlnum s.x (name :: s.x.seen) name hr
    have hne : ∀ o ∈ s.outputs, o.name ≠ name := fun o ho he => hnew (he ▸ h.seen o ho)
    have heq := extractEntry_eq unicodeAlnum { s.x with seen := name :: s.x.seen } info name
    constructor
    · intro o ho
      rcases List.mem_append.mp ho with ho | ho
      · exact h.direct o ho
      · obtain rfl := List.mem_singleton.mp ho
        exact ⟨hplain, rfl⟩
    · rw [List.map_append, List.nodup_append]
      refine ⟨h.once, List.nodup_singleton _, ?_⟩
      rintro _ ho _ hn rfl
      obtain ⟨o, ho, hname⟩ := List.mem_map.mp ho
      exact hne o ho (hname.trans (List.mem_singleton.mp hn))
    · intro o ho
      rw [heq]
      rcases List.mem_append.mp ho with ho | ho
      · exact List.mem_cons_of_mem _ (h.seen o ho)
      · obtain rfl := List.mem_singleton.mp ho
        exact List.mem_cons_self
    · intro hb o ho content hcontent
      rw [heq] at hb
      obtain ⟨hb, he⟩ := Bool.or_eq_false_iff.mp hb
      rcases List.mem_append.mp ho with ho | ho
      · exact h.whole hb o ho content ((hothers _ (hne o ho)).mp hcontent)
      · obtain rfl := List.mem_singleton.mp ho
        obtain ⟨hf, rfl⟩ := (hown content).mp hcontent
        exact reaching_complete (hc.le hb) hf he
    · intro cert hcert
      have hold : cert ∈ s.x.certs → ∃ o ∈ s.outputs, o.name = cert ∧ ∃ content, (cert, content) ∈
          (extractEntry unicodeAlnum { s.x with seen := name :: s.x.seen } info name).1.dir := by
        intro hcert
        obtain ⟨o, ho, rfl, content, hcontent⟩ := h.certs cert hcert
        exact ⟨o, ho, rfl, content, (hothers _ (hne o ho)).mpr hcontent⟩
      have hout {o : Output} (ho : o ∈ s.outputs) (o' : Output) : o ∈ s.outputs ++ [o'] :=
        List.mem_append_left _ ho
      rw [heq] at hcert
      simp only at hcert
      split_ifs at hcert with hnamed
      · rcases List.mem_append.mp hcert with hcert | hcert
        · obtain ⟨o, ho, hkept⟩ := hold hcert
          exact ⟨o, hout ho _, hkept⟩
        · obtain rfl := List.mem_singleton.mp hcert
          simp only [Bool.and_eq_true, Bool.not_eq_true'] at hnamed
          exact ⟨_, List.mem_append_right _ List.mem_cons_self, rfl, _, (hown _).mpr ⟨hnamed.1.1, rfl⟩⟩
      · obtain ⟨o, ho, hkept⟩ := hold hcert
        exact ⟨o, hout ho _, hkept⟩

def still (x : Extraction) (infos : List ZipEntry) : Nat :=
  if x.bomb then late infos
  else upTo (maxExtractedTotalBytes - x.total) (infos.flatMap ZipEntry.chunks) +
    loose (maxExtractedTotalBytes - x.total) infos

theorem length_reaching {total : Nat} (info : ZipEntry) (h : total ≤ maxExtractedTotalBytes) :
    (reaching total info).length = upTo (maxExtractedTotalBytes - total) info.chunks +
      if size info.chunks ≤ maxExtractedTotalBytes - total then stray info else 0 := by
  obtain ⟨hw, -, he, -⟩ := writeChunks_of_le info.chunks h
  simp only [reaching, List.length_append, hw, stray]
  by_cases hs : size info.chunks ≤ maxExtractedTotalBytes - total
  · have hf : (writeChunks total info.chunks).2.2 = false :=
      Bool.eq_false_iff.mpr fun ht => Nat.not_lt.mpr hs (he.mp ht)
    simp only [hf, if_pos hs, Bool.not_false, Bool.and_true]
    cases info.readFails <;> rfl
  · have ht := he.mpr (Nat.not_le.mp hs)
    simp only [ht, if_neg hs, Bool.not_true, Bool.and_false]
    rfl

theorem still_cons (unicodeAlnum : Char → Bool) {x : Extraction} (seen : List String) (name : String)
    (infos : List ZipEntry) (h : Counted x) :
    still x (info :: infos) = (reaching x.total info).length +
      if (extractEntry unicodeAlnum { x with seen } info name).2 then 0
      else still (extractEntry unicodeAlnum { x with seen } info name).1 infos := by
  rw [extractEntry_eq]
  cases hb : x.bomb with
  | true =>
      simp only [still, hb, if_true, Bool.true_or, Bool.and_true, late, reaching, failed]
      rcases hc : info.chunks with _ | ⟨chunk, chunks⟩
      · simp only [writeChunks, stray, List.nil_append, Bool.not_false, Bool.and_true]
        cases info.closeFails <;> cases info.readFails <;> simp
      · simp only [writeChunks_of_lt (h.lt hb)]
        cases info.closeFails <;> simp
  | false =>
      obtain ⟨-, htotal, he, -⟩ := writeChunks_of_le info.chunks (h.le hb)
      rw [length_reaching info (h.le hb)]
      simp only [still, hb, Bool.false_eq_true, if_false, Bool.false_or, failed, htotal,
        List.flatMap_cons, upTo_append, loose]
      by_cases hs : size info.chunks ≤ maxExtractedTotalBytes - x.total
      · have hf : (writeChunks x.total info.chunks).2.2 = false :=
          Bool.eq_false_iff.mpr fun ht => Nat.not_lt.mpr hs (he.mp ht)
        simp only [hf, if_pos hs, Bool.and_false, Bool.false_eq_true, if_false, upTo_of_le hs,
          ← Nat.sub_sub]
        omega
      · have ht := he.mpr (Nat.not_le.mp hs)
        simp only [ht, if_neg hs, Bool.not_true, Bool.and_false, Bool.or_false, Bool.and_true, if_true]
        cases info.closeFails <;> simp

theorem writtenBytes_loop (unicodeAlnum : Char → Bool) (d : Destination) (s : Extracting)
    (infos : List ZipEntry) (h : Counted s.x) :
    writtenBytes (loop unicodeAlnum d s infos).outputs =
      writtenBytes s.outputs + still s.x (opened d s.x.seen infos) := by
  induction infos generalizing s with
  | nil =>
      have hz : still s.x [] = 0 := by simp [still, late, upTo, loose]
      exact (congrArg (writtenBytes s.outputs + ·) hz).symm
  | cons info infos ih =>
      have hc : Counted (round unicodeAlnum d s info).1.x := counted_round h
      simp only [loop]
      obtain ⟨seen, hr, -, ho⟩ | ⟨name, -, -, -, ho, hr⟩ := round_cases unicodeAlnum d s info
      · rw [hr] at hc ⊢
        rw [if_neg Bool.false_ne_true, ih _ hc, ho]
        rfl
      · rw [hr] at hc ⊢
        rw [ho, still_cons unicodeAlnum (name :: s.x.seen) name _ h]
        have hsum (o : Output) : writtenBytes (s.outputs ++ [o]) =
            writtenBytes s.outputs + o.written.length := by
          simp only [writtenBytes, List.map_append, List.sum_append, List.map_singleton,
            List.sum_singleton]
        have hseen : (extractEntry unicodeAlnum { s.x with seen := name :: s.x.seen } info name).1.seen =
            name :: s.x.seen := by rw [extractEntry_eq]
        generalize extractEntry unicodeAlnum _ info name = entry at hc hseen ⊢
        obtain ⟨x, _ | _⟩ := entry
        · simp only [Bool.false_eq_true, if_false]
          rw [ih _ hc, hsum, Nat.add_assoc, hseen]
        · exact hsum _

theorem loop_sound {infos : List ZipEntry} (hr : ∀ info ∈ infos, info.removed = true) (hc : Counted s.x)
    (h : Sound d s) : Sound d (loop unicodeAlnum d s infos) := by
  induction infos generalizing s with
  | nil => exact h
  | cons info infos ih =>
      have hs : Sound d (round unicodeAlnum d s info).1 := round_sound (hr info List.mem_cons_self) hc h
      simp only [loop]
      split_ifs
      · exact hs
      · exact ih (fun i hi => hr i (List.mem_cons_of_mem _ hi)) (counted_round hc) hs

end Round

section Archive

theorem upTo_le {room bound : Nat} {chunks : List Bytes} (h : ∀ chunk ∈ chunks, chunk.length ≤ bound) :
    upTo room chunks ≤ room + bound := by
  induction chunks generalizing room with
  | nil => exact Nat.zero_le _
  | cons chunk chunks ih =>
      have hchunk := h chunk List.mem_cons_self
      simp only [upTo]
      split_ifs with hc
      · exact Nat.le_add_left_of_le hchunk
      · have hrest := @ih (room - chunk.length) fun c hc => h c (List.mem_cons_of_mem _ hc)
        omega

theorem loose_eq_zero {room : Nat} {infos : List ZipEntry}
    (h : ∀ info ∈ infos, info.closeFails = false ∧ info.readFails = false) : loose room infos = 0 := by
  induction infos generalizing room with
  | nil => rfl
  | cons info infos ih =>
      obtain ⟨hclose, hread⟩ := h info List.mem_cons_self
      simp only [loose, stray, hclose, hread, Bool.false_eq_true, if_false, Nat.zero_add,
        ih fun i hi => h i (List.mem_cons_of_mem _ hi), ite_self]

variable {unicodeAlnum : Char → Bool} {d : Destination} {dir : ConfigDir} {infos : List ZipEntry}

/-- The loop over a destination with links is that of `extract` over the entries whose
output is no link. -/
theorem round_view (s : Extracting) (info : ZipEntry) :
    ((round unicodeAlnum d s info).1.x, (round unicodeAlnum d s info).2) =
      extractInfo unicodeAlnum s.x (d.view info) := by
  have hname : basename (d.view info).filename = basename info.filename := rfl
  simp only [round, extractInfo, hname]
  by_cases hn : basename info.filename = "" ∨ basename info.filename ∈ s.x.seen
  · simp only [if_pos hn]
  · simp only [if_neg hn]
    cases ho : d.openOutput info (basename info.filename) with
    | none =>
        have hclosed : (!ConfigSource.isSafePath (basename info.filename) ||
            decide (basename info.filename = ".") || !(d.view info).opens) = true := by
          by_contra hopen
          simp only [Bool.or_eq_true, Bool.not_eq_true', decide_eq_true_eq, not_or, Bool.not_eq_false,
            Destination.view, Bool.and_eq_true, Option.isNone_iff_eq_none, ConfigSource.isSafePath] at hopen
          obtain ⟨⟨hdots, hdot⟩, hopens, hl⟩ := hopen
          simp [Destination.openOutput, hdots, hdot, hopens, hl] at ho
        rw [if_pos hclosed]
        split_ifs <;> rfl
    | some path =>
        obtain ⟨hdot, hdots, hl, hopens, -⟩ := openOutput_eq_some ho
        have hopen : (!ConfigSource.isSafePath (basename info.filename) ||
            decide (basename info.filename = ".") || !(d.view info).opens) = false := by
          simp [ConfigSource.isSafePath, Destination.view, hdots, hdot, hopens, hl]
        rw [if_neg (Bool.eq_false_iff.mp hopen), isSafePath_of_link_eq_none hdots hl]
        rfl

theorem loop_view (s : Extracting) (infos : List ZipEntry) :
    (loop unicodeAlnum d s infos).x = extract unicodeAlnum s.x (infos.map d.view) := by
  induction infos generalizing s with
  | nil => rfl
  | cons info infos ih =>
      rw [List.map_cons, extract_cons, ← round_view]
      simp only [loop]
      split_ifs
      · rfl
      · exact ih _

theorem extractArchive_eq (unicodeAlnum : Char → Bool) (d : Destination) (dir : ConfigDir)
    (infos : List ZipEntry) :
    ((extractArchive unicodeAlnum d dir infos).dir, (extractArchive unicodeAlnum d dir infos).result) =
      importArchive unicodeAlnum dir (infos.map d.view) := by
  have hname (info : ZipEntry) : (d.view info).filename = info.filename := rfl
  have htargets : targets unicodeAlnum (infos.map d.view) = (targets unicodeAlnum infos).map d.view := by
    simp only [targets, List.filter_map, List.map_append, Function.comp_def, hname]
  have hloop : (loop unicodeAlnum d { x := { dir } } (targets unicodeAlnum infos)).x =
      extract unicodeAlnum { dir } (targets unicodeAlnum (infos.map d.view)) := by
    rw [loop_view, htargets]
  have hlength : (infos.map d.view).length = infos.length := List.length_map d.view
  by_cases hlong : infos.length > maxZipEntries
  · simp only [extractArchive, importArchive, hlength, if_pos hlong]
  · simp only [extractArchive, importArchive, hlength, if_neg hlong, hloop]
    change _ = if (extract unicodeAlnum { dir } (targets unicodeAlnum (infos.map d.view))).bomb then _
      else _
    split_ifs <;> rfl

theorem writtenBytes_extractArchive (unicodeAlnum : Char → Bool) (d : Destination) (dir : ConfigDir)
    (infos : List ZipEntry) :
    writtenBytes (extractArchive unicodeAlnum d dir infos).outputs =
      upTo maxExtractedTotalBytes ((openedEntries d unicodeAlnum infos).flatMap ZipEntry.chunks) +
        loose maxExtractedTotalBytes (openedEntries d unicodeAlnum infos) := by
  have hcounted : Counted ({ dir } : Extraction) := Nat.zero_le _
  by_cases hlong : infos.length > maxZipEntries
  · simp only [extractArchive, openedEntries, if_pos hlong]
    rfl
  · have hloop := writtenBytes_loop unicodeAlnum d { x := { dir } } (targets unicodeAlnum infos) hcounted
    simp only [extractArchive, openedEntries, if_neg hlong]
    rw [hloop]
    simp [still, writtenBytes]

theorem writtenBytes_le (h : ∀ info ∈ openedEntries d unicodeAlnum infos,
    info.closeFails = false ∧ info.readFails = false) :
    writtenBytes (extractArchive unicodeAlnum d dir infos).outputs ≤ maxExtractedTotalBytes +
      chunkSize := by
  rw [writtenBytes_extractArchive, loose_eq_zero h]
  refine upTo_le fun chunk hc => ?_
  obtain ⟨info, -, hc⟩ := List.mem_flatMap.mp hc
  exact (info.sized chunk hc).2

/-- Extraction is confined, free of duplicates and leaves no truncated file in any case,
and bounded exactly when what failing outputs add fits. -/
theorem contained_iff (unicodeAlnum : Char → Bool) (d : Destination) (dir : ConfigDir)
    (infos : List ZipEntry) (hr : ∀ info ∈ infos, info.removed = true) :
    Contained d (extractArchive unicodeAlnum d dir infos) ↔
      upTo maxExtractedTotalBytes ((openedEntries d unicodeAlnum infos).flatMap ZipEntry.chunks) +
        loose maxExtractedTotalBytes (openedEntries d unicodeAlnum infos) ≤
          maxExtractedTotalBytes + chunkSize := by
  rw [← writtenBytes_extractArchive unicodeAlnum d dir infos]
  refine ⟨fun h => h.bounded, fun h => ?_⟩
  have htargets : ∀ info ∈ targets unicodeAlnum infos, info.removed = true := by
    intro info hi
    rcases List.mem_append.mp hi with hi | hi <;> exact hr info (List.mem_filter.mp hi).1
  have hsound : Sound d (loop unicodeAlnum d { x := { dir } } (targets unicodeAlnum infos)) :=
    loop_sound htargets (Nat.zero_le _) ⟨by simp, List.nodup_nil, by simp, by simp, by simp⟩
  by_cases hlong : infos.length > maxZipEntries
  · simp only [extractArchive, if_pos hlong] at h ⊢
    exact ⟨by simp, List.nodup_nil, h, fun certs hcerts => by cases hcerts⟩
  · simp only [extractArchive, if_neg hlong] at h ⊢
    refine ⟨hsound.direct, hsound.once, h, fun certs hcerts => ?_⟩
    simp only at hcerts
    split_ifs at hcerts with hbomb
    obtain rfl := Except.ok.inj hcerts
    exact ⟨hsound.whole (Bool.eq_false_iff.mpr hbomb), hsound.certs⟩

def hostile : List ZipEntry :=
  [{ filename := "../../up.ovpn", chunks := [[1]], sized := by decide },
    { filename := "cert/..", chunks := [[2]], sized := by decide },
    { filename := "dir/up.ovpn", chunks := [[3]], sized := by decide },
    { filename := "ca.crt", chunks := [[4]], sized := by decide, readFails := true, torn := [5] }]

theorem contained_hostile :
    Contained { path := ["import"] } (extractArchive (fun _ => false) { path := ["import"] } [] hostile) :=
  (contained_iff _ _ _ _ (by decide)).mpr (by decide)

end Archive

section Bomb

def zeros (n : Nat) : Bytes := List.replicate n 0

theorem length_zeros (n : Nat) : (zeros n).length = n := List.length_replicate

theorem late_singleton {info : ZipEntry} {chunk : Bytes} (hc : info.chunks = [chunk])
    (hclose : info.closeFails = false) : late [info] = chunk.length := by
  simp only [late, hc, hclose, Bool.false_eq_true, if_false, Nat.add_zero]

theorem zeros_sized {n k : Nat} (hpos : 0 < n) (hle : n ≤ chunkSize) :
    ∀ chunk ∈ List.replicate k (zeros n), chunk ≠ [] ∧ chunk.length ≤ chunkSize := by
  intro chunk hc
  obtain rfl := List.eq_of_mem_replicate hc
  refine ⟨List.ne_nil_of_length_pos ?_, ?_⟩ <;> rwa [length_zeros]

theorem size_zeros (k n : Nat) : size (List.replicate k (zeros n)) = k * n := by
  simp only [size, zeros, List.map_replicate, List.length_replicate, List.sum_replicate_nat]

def bomb : ZipEntry where
  filename := "bomb.ovpn"
  chunks := List.replicate 4097 (zeros chunkSize)
  sized := zeros_sized (by decide) (Nat.le_refl _)
  closeFails := true

def next : ZipEntry where
  filename := "next.ovpn"
  chunks := List.replicate 1 (zeros chunkSize)
  sized := zeros_sized (by decide) (Nat.le_refl _)

theorem openedEntries_bomb :
    openedEntries { path := ["import"] } (fun _ => false) [bomb, next] = [bomb, next] := rfl

theorem extraction_unbounded : ¬ ∀ (unicodeAlnum : Char → Bool) (d : Destination) (dir : ConfigDir)
    (infos : List ZipEntry), (∀ info ∈ infos, info.removed = true) →
      Contained d (extractArchive unicodeAlnum d dir infos) := by
  intro h
  have hr : ∀ info ∈ [bomb, next], info.removed = true := by
    intro info hi
    simp only [List.mem_cons, List.not_mem_nil, or_false] at hi
    rcases hi with rfl | rfl <;> rfl
  have hbound := (contained_iff _ _ _ _ hr).mp
    (h (fun _ => false) { path := ["import"] } [] [bomb, next] hr)
  rw [openedEntries_bomb] at hbound
  have hsize : size bomb.chunks = 4097 * chunkSize := size_zeros 4097 chunkSize
  have hover : maxExtractedTotalBytes < size bomb.chunks := by
    rw [hsize]
    decide
  have hupTo : maxExtractedTotalBytes < upTo maxExtractedTotalBytes (bomb.chunks ++ next.chunks) := by
    rw [upTo_append, if_neg (Nat.not_le.mpr hover)]
    exact lt_upTo hover
  have hloose : loose maxExtractedTotalBytes [bomb, next] = chunkSize := by
    have hclose : bomb.closeFails = true := rfl
    rw [loose, if_neg (Nat.not_le.mpr hover), if_pos hclose, late_singleton rfl rfl, length_zeros]
  simp only [List.flatMap_cons, List.flatMap_nil, List.append_nil, hloose] at hbound
  omega

end Bomb

end EovpnPro.ArchiveExtraction
