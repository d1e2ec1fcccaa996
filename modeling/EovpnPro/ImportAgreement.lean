import EovpnPro.ArchiveExtraction
import Mathlib.Data.List.TakeWhile

namespace EovpnPro.ImportAgreement

open ArchiveExtraction ConfigSource Directories

/-- The names that the audit in `validate_and_load` opens. -/
def audited (dir : ConfigDir) : List String :=
  (dir.map Prod.fst).filter fun name => endsWith name ".ovpn"

/-- `CONFIGS_LIST` as `load_only` stores it. -/
def configsList (dir : ConfigDir) : List String :=
  ((dir.map Prod.fst).filter fun name => endsWith name ".ovpn").insertionSort (· ≤ ·)

/-- The two branches of `download_remote_to_destination` leave the same files and name
the same certificates, and the audit and the list have the configurations of each. -/
structure Agree (folder archive : ConfigDir × Except ImportError (List String)) : Prop where
  files : ∀ file, file ∈ folder.1 ↔ file ∈ archive.1
  certs : ∃ ours theirs, folder.2 = .ok ours ∧ archive.2 = .ok theirs ∧ ∀ name, name ∈ ours ↔ name ∈ theirs
  ofFolder : ∀ name ∈ folder.1.map Prod.fst, (endsWith name ".ovpn" = true ↔ name ∈ audited folder.1) ∧
    (endsWith name ".ovpn" = true ↔ name ∈ configsList folder.1)
  ofArchive : ∀ name ∈ archive.1.map Prod.fst, (ovpnRegex name = true ↔ name ∈ audited archive.1) ∧
    (ovpnRegex name = true ↔ name ∈ configsList archive.1)

/-- A folder and an archive that both hold just these files, with nothing in the way of
reading and writing them. -/
structure Offered (files : ConfigDir) (listing : List FolderEntry) (infos : List ZipEntry) : Prop where
  names : (files.map Prod.fst).Nodup
  plain : ∀ file ∈ files, Plain file.1
  folder : (listing.map fun entry => (entry.name, entry.content)).Perm files
  readable : ∀ entry ∈ listing, entry.isFile = true ∧ entry.isLink = false ∧ entry.statFails = false ∧
    entry.part = none
  archive : (infos.map fun info => (info.filename, info.chunks.flatten)).Perm files
  whole : ∀ info ∈ infos, info.opens = true ∧ info.readFails = false ∧ info.closeFails = false

def bytes (files : ConfigDir) : Nat := (files.map fun file => file.2.length).sum

def inFolder (name : String) : Bool :=
  endsWith name ".ovpn" || endsWith name ".crt" || endsWith name ".pem"

def inArchive (unicodeAlnum : Char → Bool) (name : String) : Bool :=
  ovpnRegex name || crtRegex unicodeAlnum name

structure WithinLimits (unicodeAlnum : Char → Bool) (files : ConfigDir) : Prop where
  entries : files.length ≤ maxZipEntries
  folder : bytes (files.filter fun file => inFolder file.1) ≤ maxFolderImportTotalBytes
  archive : bytes (files.filter fun file => inArchive unicodeAlnum file.1) ≤ maxExtractedTotalBytes

/-- A name that the regular expressions take only with a suffix that the others know. -/
def PlainlyNamed (unicodeAlnum : Char → Bool) (name : String) : Prop :=
  (ovpnRegex name = true → endsWith name ".ovpn" = true) ∧
    (crtRegex unicodeAlnum name = true → (endsWith name ".crt" || endsWith name ".pem") = true)

section Names

variable {unicodeAlnum : Char → Bool} {name : String}

theorem toLower_suffix {suffix : String} (hl : suffix.toList.map Char.toLower = suffix.toList)
    (h : endsWith name suffix = true) : suffix.toList <:+ name.toList.map Char.toLower := by
  obtain ⟨front, hf⟩ := of_decide_eq_true h
  exact ⟨front.map Char.toLower, by rw [← hf, List.map_append, hl]⟩

theorem ovpnRegex_of_endsWith (h : endsWith name ".ovpn" = true) : ovpnRegex name = true := by
  have hs := toLower_suffix (by decide) h
  simp only [ovpnRegex, hs, decide_true, Bool.true_or]

theorem crtRegex_of_endsWith (h : (endsWith name ".crt" || endsWith name ".pem") = true) :
    crtRegex unicodeAlnum name = true := by
  have hmatch {word : String} (hw : word ∈ [".crt", ".pem", ".ca", "cert"])
      (hs : word.toList <:+ name.toList.map Char.toLower) : crtRegex unicodeAlnum name = true := by
    refine List.any_eq_true.mpr ⟨word.toList, (List.mem_tails _ _).mpr hs, ?_⟩
    refine List.any_eq_true.mpr ⟨word, hw, ?_⟩
    have hend : word.toList.drop word.length = [] := by
      rw [← String.length_toList, List.drop_length]
    simp [hend, boundary]
  rcases Bool.or_eq_true_iff.mp h with h | h
  · exact hmatch (by simp) (toLower_suffix (by decide) h)
  · exact hmatch (by simp) (toLower_suffix (by decide) h)

theorem basename_of_plain (h : Plain name) : basename name = name := by
  have hall : ∀ c ∈ name.toList.reverse, decide (c ≠ '/') = true := fun c hc =>
    decide_eq_true fun he => h.2.2.2 (he ▸ List.mem_reverse.mp hc)
  rw [basename, List.takeWhile_eq_self_iff.mpr hall, List.reverse_reverse, String.ofList_toList]

end Names

section Folder

variable {unicodeAlnum : Char → Bool} {files : ConfigDir} {listing entries : List FolderEntry}
  {infos : List ZipEntry}

def chosen (entries : List FolderEntry) : ConfigDir :=
  (entries.filter selected).map fun entry => (entry.name, entry.content)

def folderCert (name : String) : Bool := endsWith name ".crt" || endsWith name ".pem"

theorem scanFolder_eq (h : ∀ entry ∈ entries, entry.statFails = false) :
    scanFolder entries = some (bytes (chosen entries)) := by
  induction entries with
  | nil => rfl
  | cons entry entries ih =>
      obtain ⟨hentry, h⟩ := List.forall_mem_cons.mp h
      simp only [scanFolder, ih h, hentry, chosen, List.filter_cons, Bool.false_eq_true, if_false]
      split_ifs <;> rfl

theorem copyFolder_eq (dir : ConfigDir) (certs : List String)
    (h : ∀ entry ∈ entries, entry.part = none ∧ ConfigSource.isSafePath entry.name = true) :
    copyFolder dir certs entries =
      (putAll dir (chosen entries), .ok (certs ++ ((chosen entries).map Prod.fst).filter folderCert)) := by
  induction entries generalizing dir certs with
  | nil => simp [copyFolder, chosen, putAll]
  | cons entry entries ih =>
      obtain ⟨⟨hpart, hsafe⟩, h⟩ := List.forall_mem_cons.mp h
      simp only [copyFolder, hpart, hsafe, Bool.and_true, chosen, List.filter_cons, ih _ _ h]
      split_ifs with hs hc
      · simp [putAll, folderCert, hc]
      · simp [putAll, folderCert, hc]
      · rfl

theorem isSafePath_of_plain {name : String} (h : Plain name) : ConfigSource.isSafePath name = true :=
  decide_eq_true h.2.2.1

theorem download_folder (ho : Offered files listing infos) (hl : WithinLimits unicodeAlnum files) :
    ∃ written : ConfigDir, written.Perm (files.filter fun file => inFolder file.1) ∧
      download unicodeAlnum (.folder (some listing)) [] =
        (putAll [] written, .ok ((written.map Prod.fst).filter folderCert)) := by
  have hsort := List.perm_insertionSort (fun e f : FolderEntry => e.name ≤ f.name) listing
  generalize hentries : listing.insertionSort (fun e f => e.name ≤ f.name) = entries at hsort
  have hread : ∀ entry ∈ entries, entry.isFile = true ∧ entry.isLink = false ∧
      entry.statFails = false ∧ entry.part = none := fun entry he => ho.readable entry (hsort.mem_iff.mp he)
  have hpairs : (entries.map fun entry => (entry.name, entry.content)).Perm files :=
    (hsort.map _).trans ho.folder
  have hchosen : chosen entries =
      (entries.map fun entry => (entry.name, entry.content)).filter fun file => inFolder file.1 := by
    rw [chosen, List.filter_map]
    refine congrArg _ (List.filter_congr fun entry he => ?_)
    simp only [selected, (hread entry he).1, (hread entry he).2.1, Bool.not_false, Bool.and_self,
      Bool.true_and, Function.comp, inFolder]
  have hperm : (chosen entries).Perm (files.filter fun file => inFolder file.1) :=
    hchosen ▸ hpairs.filter _
  refine ⟨chosen entries, hperm, ?_⟩
  have hsize : ¬ bytes (chosen entries) > maxFolderImportTotalBytes := by
    rw [bytes, (hperm.map fun file => file.2.length).sum_nat]
    exact Nat.not_lt.mpr hl.folder
  simp only [download, hentries, scanFolder_eq fun entry he => (hread entry he).2.2.1, if_neg hsize]
  refine copyFolder_eq [] [] fun entry he => ⟨(hread entry he).2.2.2, ?_⟩
  exact isSafePath_of_plain (ho.plain _ (hpairs.mem_iff.mp (List.mem_map_of_mem he)))

end Folder

section Archive

variable {unicodeAlnum : Char → Bool} {files : ConfigDir} {listing : List FolderEntry}
  {infos : List ZipEntry} {info : ZipEntry} {seen : List String} {x : Extraction}

def fresh (seen : List String) : List ZipEntry → ConfigDir
  | [] => []
  | info :: infos =>
      if info.filename ∈ seen then fresh seen infos
      else (info.filename, info.chunks.flatten) :: fresh (info.filename :: seen) infos

theorem mem_of_fresh {file : String × Bytes} (h : file ∈ fresh seen infos) :
    file.1 ∉ seen ∧ ∃ info ∈ infos, file = (info.filename, info.chunks.flatten) := by
  induction infos generalizing seen with
  | nil => cases h
  | cons info infos ih =>
      simp only [fresh] at h
      split_ifs at h with hs
      · obtain ⟨hn, i, hi, he⟩ := ih h
        exact ⟨hn, i, List.mem_cons_of_mem _ hi, he⟩
      · obtain rfl | h := List.mem_cons.mp h
        · exact ⟨hs, info, List.mem_cons_self, rfl⟩
        · obtain ⟨hn, i, hi, he⟩ := ih h
          exact ⟨fun hm => hn (List.mem_cons_of_mem _ hm), i, List.mem_cons_of_mem _ hi, he⟩

theorem fresh_names (seen : List String) (infos : List ZipEntry) :
    ((fresh seen infos).map Prod.fst).Nodup := by
  induction infos generalizing seen with
  | nil => exact List.nodup_nil
  | cons info infos ih =>
      simp only [fresh]
      split_ifs
      · exact ih seen
      · refine List.nodup_cons.mpr ⟨fun h => ?_, ih _⟩
        obtain ⟨file, hf, hname⟩ := List.mem_map.mp h
        exact (mem_of_fresh hf).1 (hname ▸ List.mem_cons_self)

theorem fresh_of_mem (hi : info ∈ infos) (hn : info.filename ∉ seen) :
    ∃ file ∈ fresh seen infos, file.1 = info.filename := by
  induction infos generalizing seen with
  | nil => cases hi
  | cons first infos ih =>
      simp only [fresh]
      by_cases hs : first.filename ∈ seen
      · rw [if_pos hs]
        obtain rfl | hi := List.mem_cons.mp hi
        · exact absurd hs hn
        · exact ih hi hn
      · rw [if_neg hs]
        by_cases he : info.filename = first.filename
        · exact ⟨_, List.mem_cons_self, he.symm⟩
        · have hne : info ≠ first := fun h => he (congrArg _ h)
          have hn' : info.filename ∉ first.filename :: seen := fun h =>
            (List.mem_cons.mp h).elim he hn
          obtain ⟨file, hf, hname⟩ := ih ((List.mem_cons.mp hi).resolve_left hne) hn'
          exact ⟨file, List.mem_cons_of_mem _ hf, hname⟩

structure Fine (info : ZipEntry) : Prop where
  plain : Plain info.filename
  opens : info.opens = true
  reads : info.readFails = false
  closes : info.closeFails = false

theorem extractInfo_fine (h : Fine info) (hb : x.bomb = false) (hn : info.filename ∉ x.seen)
    (ht : x.total + info.chunks.flatten.length ≤ maxExtractedTotalBytes) :
    extractInfo unicodeAlnum x info =
      ({ dir := put x.dir info.filename info.chunks.flatten
         certs := x.certs ++ [info.filename].filter (crtRegex unicodeAlnum)
         total := x.total + info.chunks.flatten.length
         seen := info.filename :: x.seen
         bomb := false }, false) := by
  have hsize : size info.chunks = info.chunks.flatten.length := List.length_flatten.symm
  obtain ⟨-, htotal, hexceeded, hwhole⟩ := writeChunks_of_le info.chunks (show x.total ≤ _ by omega)
  have he : (writeChunks x.total info.chunks).2.2 = false :=
    Bool.eq_false_iff.mpr fun he => by have := hexceeded.mp he; omega
  rw [upTo_of_le (by omega), hsize] at htotal
  have hreach : reaching x.total info = info.chunks.flatten := by
    simp only [reaching, h.reads, hwhole he, Bool.false_and, Bool.false_eq_true, if_false, List.append_nil]
  have hfailed : failed x.total info = false := by
    simp only [failed, h.reads, h.closes, Bool.false_and, Bool.or_self]
  simp only [extractInfo, basename_of_plain h.plain, if_neg (not_or.mpr ⟨h.plain.1, hn⟩),
    isSafePath_of_plain h.plain, h.plain.2.1, h.opens, decide_false, Bool.not_true, Bool.or_self,
    Bool.false_eq_true, if_false]
  rw [extractEntry_eq]
  simp only [hfailed, he, hb, hreach, htotal, Bool.false_and, Bool.false_eq_true, if_false,
    Bool.or_self, Bool.not_false, Bool.and_self, Bool.true_and, List.filter_cons, List.filter_nil]
  split_ifs <;> simp

theorem extract_fine (unicodeAlnum : Char → Bool) (x : Extraction) (h : ∀ info ∈ infos, Fine info)
    (hb : x.bomb = false) (ht : x.total + bytes (fresh x.seen infos) ≤ maxExtractedTotalBytes) :
    (extract unicodeAlnum x infos).bomb = false ∧
      (extract unicodeAlnum x infos).dir = putAll x.dir (fresh x.seen infos) ∧
      (extract unicodeAlnum x infos).certs =
        x.certs ++ ((fresh x.seen infos).map Prod.fst).filter (crtRegex unicodeAlnum) := by
  induction infos generalizing x with
  | nil => exact ⟨hb, rfl, (List.append_nil _).symm⟩
  | cons info infos ih =>
      obtain ⟨hinfo, h⟩ := List.forall_mem_cons.mp h
      rw [extract_cons]
      simp only [fresh] at ht ⊢
      by_cases hs : info.filename ∈ x.seen
      · have hskip : extractInfo unicodeAlnum x info = (x, false) := by
          simp only [extractInfo, basename_of_plain hinfo.plain, hs, or_true, if_true]
        rw [if_pos hs] at ht ⊢
        rw [hskip]
        exact ih _ h hb ht
      · rw [if_neg hs] at ht ⊢
        simp only [bytes, List.map_cons, List.sum_cons] at ht
        rw [extractInfo_fine hinfo hb hs (by omega)]
        simp only [Bool.false_eq_true, if_false]
        have hrest : x.total + info.chunks.flatten.length + bytes (fresh (info.filename :: x.seen) infos) ≤
          maxExtractedTotalBytes := by simp only [bytes]; omega
        obtain ⟨hbomb, hdir, hcerts⟩ :=
          ih ⟨_, _, x.total + info.chunks.flatten.length, info.filename :: x.seen, false⟩ h rfl hrest
        refine ⟨hbomb, hdir, hcerts.trans ?_⟩
        simp only [List.append_assoc, List.map_cons, List.filter_cons, List.filter_nil]
        split_ifs <;> rfl

theorem download_archive {source : Source} (ho : Offered files listing infos)
    (hl : WithinLimits unicodeAlnum files) (hs : loadZipArchive source = .ok infos) :
    ∃ written : ConfigDir, written.Perm (files.filter fun file => inArchive unicodeAlnum file.1) ∧
      download unicodeAlnum source [] =
        (putAll [] written, .ok ((written.map Prod.fst).filter (crtRegex unicodeAlnum))) := by
  let chosen := targets unicodeAlnum infos
  have hpair {info : ZipEntry} (hi : info ∈ infos) : (info.filename, info.chunks.flatten) ∈ files :=
    ho.archive.mem_iff.mp (List.mem_map_of_mem hi)
  have hchosen {info : ZipEntry} : info ∈ chosen ↔
      info ∈ infos ∧ inArchive unicodeAlnum info.filename = true := by
    simp only [chosen, targets, List.mem_append, List.mem_filter, inArchive, Bool.or_eq_true, ← and_or_left]
  have hfine : ∀ info ∈ chosen, Fine info := fun info hi => by
    obtain ⟨hopens, hreads, hcloses⟩ := ho.whole info (hchosen.mp hi).1
    exact ⟨ho.plain _ (hpair (hchosen.mp hi).1), hopens, hreads, hcloses⟩
  have hnodup : (fresh [] chosen).Nodup := List.Nodup.of_map Prod.fst (fresh_names [] chosen)
  have hperm : (fresh [] chosen).Perm (files.filter fun file => inArchive unicodeAlnum file.1) := by
    refine (List.perm_ext_iff_of_nodup hnodup (ho.names.of_map.filter _)).mpr fun file => ?_
    rw [List.mem_filter]
    constructor
    · intro hf
      obtain ⟨-, info, hi, rfl⟩ := mem_of_fresh hf
      exact ⟨hpair (hchosen.mp hi).1, (hchosen.mp hi).2⟩
    · rintro ⟨hf, hsel⟩
      obtain ⟨info, hi, rfl⟩ := List.mem_map.mp (ho.archive.mem_iff.mpr hf)
      obtain ⟨other, hother, hname⟩ := fresh_of_mem (hchosen.mpr ⟨hi, hsel⟩) List.not_mem_nil
      obtain ⟨-, i, hic, rfl⟩ := mem_of_fresh hother
      have hsame := List.inj_on_of_nodup_map ho.names (hpair (hchosen.mp hic).1) hf hname
      exact hsame ▸ hother
  refine ⟨fresh [] chosen, hperm, ?_⟩
  have hlength : ¬ infos.length > maxZipEntries := by
    rw [← List.length_map (fun info : ZipEntry => (info.filename, info.chunks.flatten)),
      ho.archive.length_eq]
    exact Nat.not_lt.mpr hl.entries
  have hbytes : bytes (fresh [] chosen) ≤ maxExtractedTotalBytes := by
    rw [bytes, (hperm.map fun file => file.2.length).sum_nat]
    exact hl.archive
  obtain ⟨hbomb, hdir, hcerts⟩ := extract_fine unicodeAlnum { dir := [] } hfine rfl
    ((Nat.zero_add _).symm ▸ hbytes)
  have himport : importArchive unicodeAlnum [] infos =
      (putAll [] (fresh [] chosen), .ok (((fresh [] chosen).map Prod.fst).filter
        (crtRegex unicodeAlnum))) := by
    change (if infos.length > maxZipEntries then _ else
      if (extract unicodeAlnum { dir := [] } chosen).bomb then _ else _) = _
    rw [if_neg hlength, if_neg (Bool.eq_false_iff.mp hbomb)]
    exact Prod.ext hdir (congrArg Except.ok (hcerts.trans (List.nil_append _)))
  cases source with
  | folder listing => cases hs
  | file isLink size archive => simp only [download, hs, himport]
  | url scheme hardBlocked response => simp only [download, hs, himport]

end Archive

section Agreement

variable {unicodeAlnum : Char → Bool} {files written dir : ConfigDir} {name : String}

theorem mem_audited : name ∈ audited dir ↔ name ∈ dir.map Prod.fst ∧ endsWith name ".ovpn" = true := by
  simp only [audited, List.mem_filter]

theorem mem_configsList :
    name ∈ configsList dir ↔ name ∈ dir.map Prod.fst ∧ endsWith name ".ovpn" = true := by
  simp only [configsList, List.mem_insertionSort, List.mem_filter]

theorem mem_putAll_nil {p : String → Bool} (hn : (files.map Prod.fst).Nodup)
    (hw : written.Perm (files.filter fun file => p file.1)) {file : String × Bytes} :
    file ∈ putAll [] written ↔ file ∈ files ∧ p file.1 = true := by
  have hnames : (written.map Prod.fst).Nodup :=
    ((hw.map Prod.fst).nodup_iff).mpr (List.Nodup.sublist (List.filter_sublist.map _) hn)
  rw [mem_putAll hnames, hw.mem_iff, List.mem_filter]
  simp

theorem mem_certs {p q : String → Bool} (hw : written.Perm (files.filter fun file => p file.1)) :
    name ∈ (written.map Prod.fst).filter q ↔
      (∃ file ∈ files, file.1 = name) ∧ p name = true ∧ q name = true := by
  simp only [List.mem_filter, List.mem_map, hw.mem_iff]
  constructor
  · rintro ⟨⟨file, ⟨hf, hp⟩, rfl⟩, hq⟩
    exact ⟨⟨file, hf, rfl⟩, hp, hq⟩
  · rintro ⟨⟨file, hf, rfl⟩, hp, hq⟩
    exact ⟨⟨file, ⟨hf, hp⟩, rfl⟩, hq⟩

theorem plainlyNamed_of_agree {ours theirs : ConfigDir} (hn : (files.map Prod.fst).Nodup)
    (hours : ours.Perm (files.filter fun file => inFolder file.1))
    (htheirs : theirs.Perm (files.filter fun file => inArchive unicodeAlnum file.1))
    (h : Agree (putAll [] ours, .ok ((ours.map Prod.fst).filter folderCert))
      (putAll [] theirs, .ok ((theirs.map Prod.fst).filter (crtRegex unicodeAlnum)))) :
    ∀ file ∈ files, PlainlyNamed unicodeAlnum file.1 := by
  intro file hf
  constructor
  · intro hovpn
    have hin : file ∈ putAll [] theirs :=
      (mem_putAll_nil hn htheirs).mpr ⟨hf, by simp only [inArchive, hovpn, Bool.true_or]⟩
    exact (mem_audited.mp (((h.ofArchive file.1 (List.mem_map_of_mem hin)).1).mp hovpn)).2
  · intro hcrt
    obtain ⟨_, _, hok, hok', hcerts⟩ := h.certs
    obtain rfl := Except.ok.inj hok
    obtain rfl := Except.ok.inj hok'
    have hin := (hcerts file.1).mpr
      ((mem_certs htheirs).mpr ⟨⟨file, hf, rfl⟩, by simp only [inArchive, hcrt, Bool.or_true], hcrt⟩)
    exact ((mem_certs hours).mp hin).2.2

theorem agree_of_plainlyNamed {ours theirs : ConfigDir} (hn : (files.map Prod.fst).Nodup)
    (hours : ours.Perm (files.filter fun file => inFolder file.1))
    (htheirs : theirs.Perm (files.filter fun file => inArchive unicodeAlnum file.1))
    (h : ∀ file ∈ files, PlainlyNamed unicodeAlnum file.1) :
    Agree (putAll [] ours, .ok ((ours.map Prod.fst).filter folderCert))
      (putAll [] theirs, .ok ((theirs.map Prod.fst).filter (crtRegex unicodeAlnum))) := by
  have hovpn {file : String × Bytes} (hf : file ∈ files) :
      ovpnRegex file.1 = true ↔ endsWith file.1 ".ovpn" = true :=
    ⟨(h file hf).1, ovpnRegex_of_endsWith⟩
  have hcrt {file : String × Bytes} (hf : file ∈ files) :
      crtRegex unicodeAlnum file.1 = true ↔ folderCert file.1 = true :=
    ⟨(h file hf).2, crtRegex_of_endsWith⟩
  have hselect {file : String × Bytes} (hf : file ∈ files) :
      inFolder file.1 = true ↔ inArchive unicodeAlnum file.1 = true := by
    simp only [inFolder, inArchive, Bool.or_eq_true, hovpn hf, hcrt hf, folderCert, or_assoc]
  refine ⟨fun file => ?_, ⟨_, _, rfl, rfl, fun name => ?_⟩, fun name hname => ?_, fun name hname => ?_⟩
  · rw [mem_putAll_nil hn hours, mem_putAll_nil hn htheirs]
    exact and_congr_right hselect
  · rw [mem_certs hours, mem_certs htheirs]
    refine and_congr_right fun ⟨file, hf, he⟩ => ?_
    subst he
    rw [hselect hf, hcrt hf]
  · rw [mem_audited, mem_configsList, and_iff_right hname]
    exact ⟨Iff.rfl, Iff.rfl⟩
  · rw [mem_audited, mem_configsList, and_iff_right hname]
    obtain ⟨file, hf, rfl⟩ := List.mem_map.mp hname
    have hin := ((mem_putAll_nil hn htheirs).mp hf).1
    exact ⟨hovpn hin, hovpn hin⟩

/-- The branches, the audit and the list agree on a set of files exactly when the regular
expressions take none of its names without the plain suffix. -/
theorem agree_iff (unicodeAlnum : Char → Bool) {files : ConfigDir} {listing : List FolderEntry}
    {infos : List ZipEntry} {source : Source} (ho : Offered files listing infos)
    (hl : WithinLimits unicodeAlnum files) (hs : loadZipArchive source = .ok infos) :
    Agree (download unicodeAlnum (.folder (some listing)) []) (download unicodeAlnum source []) ↔
      ∀ file ∈ files, PlainlyNamed unicodeAlnum file.1 := by
  obtain ⟨ours, hours, hfolder⟩ := download_folder ho hl
  obtain ⟨theirs, htheirs, harchive⟩ := download_archive ho hl hs
  rw [hfolder, harchive]
  exact ⟨plainlyNamed_of_agree ho.names hours htheirs, agree_of_plainlyNamed ho.names hours htheirs⟩

end Agreement

instance (name : String) : Decidable (Plain name) := inferInstanceAs (Decidable (_ ∧ _ ∧ _ ∧ _))

instance (unicodeAlnum : Char → Bool) (name : String) : Decidable (PlainlyNamed unicodeAlnum name) :=
  inferInstanceAs (Decidable ((_ → _) ∧ (_ → _)))

def exported : ConfigDir := [("b.ovpn", [2, 3]), ("ca.crt", [7]), ("a.ovpn", [1])]

def listed : List FolderEntry :=
  [{ name := "a.ovpn", content := [1] }, { name := "b.ovpn", content := [2, 3] }, { name := "ca.crt", content := [7] }]

theorem one_sized : ∀ chunk ∈ ([[1]] : List Bytes), chunk ≠ [] ∧ chunk.length ≤ chunkSize := by decide

def zipped : List ZipEntry :=
  [{ filename := "ca.crt", chunks := [[7]], sized := by decide },
    { filename := "b.ovpn", chunks := [[2], [3]], sized := by decide },
    { filename := "a.ovpn", chunks := [[1]], sized := one_sized }]

theorem offered_exported : Offered exported listed zipped where
  names := by decide
  plain := by decide
  folder := by decide
  readable := by decide
  archive := by decide
  whole := by decide

theorem agree_exported : Agree (download (fun _ => false) (.folder (some listed)) [])
    (download (fun _ => false) (.file false (some 3) (some zipped)) []) :=
  (agree_iff _ offered_exported ⟨by decide, by decide, by decide⟩ rfl).mpr (by decide)

def folderOf (name : String) : List FolderEntry := [{ name, content := [1] }]

def entriesOf (name : String) : List ZipEntry := [{ filename := name, chunks := [[1]], sized := one_sized }]

def archiveOf (name : String) : Source := .file false (some 1) (some (entriesOf name))

theorem offered_single {name : String} (h : Plain name) :
    Offered [(name, [1])] (folderOf name) (entriesOf name) where
  names := List.nodup_singleton _
  plain := fun _ hf => List.mem_singleton.mp hf ▸ h
  folder := List.Perm.refl _
  readable := fun _ he => List.mem_singleton.mp he ▸ ⟨rfl, rfl, rfl, rfl⟩
  archive := List.Perm.refl _
  whole := fun _ hi => List.mem_singleton.mp hi ▸ ⟨rfl, rfl, rfl⟩

/-- A configuration in capitals is imported from an archive only, and is then neither
audited nor listed. -/
theorem capitals_disagree : ¬ ∀ (unicodeAlnum : Char → Bool) (files : ConfigDir)
    (listing : List FolderEntry) (infos : List ZipEntry) (source : Source),
      Offered files listing infos →
      WithinLimits unicodeAlnum files → loadZipArchive source = .ok infos →
      Agree (download unicodeAlnum (.folder (some listing)) []) (download unicodeAlnum source []) := by
  intro h
  have hagree := h (fun _ => false) _ _ _ (archiveOf "SERVER.OVPN")
    (offered_single (by decide)) ⟨by decide, by decide, by decide⟩ rfl
  have hfiles := hagree.files ("SERVER.OVPN", [1])
  revert hfiles
  decide

end EovpnPro.ImportAgreement
