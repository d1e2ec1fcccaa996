import EovpnPro.Directories
import Mathlib.Data.List.Infix
import Mathlib.Data.List.Sort
import Mathlib.Data.String.Basic

namespace EovpnPro.ConfigSource

open Directories

abbrev Bytes := List UInt8

abbrev ConfigDir := Dir String Bytes

def maxZipDownloadBytes : Nat := 64 * 1024 * 1024

def maxExtractedTotalBytes : Nat := 256 * 1024 * 1024

def maxFolderImportTotalBytes : Nat := 256 * 1024 * 1024

def maxZipEntries : Nat := 20000

def chunkSize : Nat := 64 * 1024

inductive ImportError
  | notZip (message : String)
  | insecureSource (message : String)
  | value (message : String)
  | fileNotFound (message : String)
  | os
  deriving DecidableEq, Repr

/-- An entry of a source folder. A failing copy leaves `part` of it behind. -/
structure FolderEntry where
  name : String
  isFile : Bool := true
  isLink : Bool := false
  content : Bytes := []
  statFails : Bool := false
  part : Option Bytes := none
  deriving DecidableEq, Repr

/-- An archive entry by the chunks that are read and written. `readFails` is an
exception after the last of them: of the next read, or of a write that leaves `torn`
of its chunk. `opens` and `closeFails` are about its output file, which `removed` says
can be removed again. -/
structure ZipEntry where
  filename : String
  chunks : List Bytes := []
  torn : Bytes := []
  sized : ∀ chunk ∈ chunks, chunk ≠ [] ∧ chunk.length ≤ chunkSize := by simp
  opens : Bool := true
  readFails : Bool := false
  closeFails : Bool := false
  removed : Bool := true

/-- An HTTP response: the size it announces, the sizes of the reads of its body,
and what `zipfile` makes of them. -/
structure Response where
  contentLength : Option Nat := none
  reads : List Nat := []
  readFails : Bool := false
  archive : Option (List ZipEntry) := none

/-- What the expanded source names: a folder (whose listing may fail), some other
existing path, or a URL. -/
inductive Source
  | folder (listing : Option (List FolderEntry))
  | file (isLink : Bool) (size : Option Nat) (archive : Option (List ZipEntry))
  | url (scheme : String) (hardBlocked : Bool) (response : Except ImportError Response)

def endsWith (name suffix : String) : Bool := decide (suffix.toList <:+ name.toList)

/-- `is_safe_path` for a single name below the destination. -/
def isSafePath (name : String) : Bool := decide (name ≠ "..")

def basename (path : String) : String :=
  String.ofList (path.toList.reverse.takeWhile (fun c => decide (c ≠ '/'))).reverse

/-- `ovpn_regex`, whose `$` also stands before a line feed at the very end. -/
def ovpnRegex (name : String) : Bool :=
  let lowered := name.toList.map Char.toLower
  decide (".ovpn".toList <:+ lowered) || decide (".ovpn\n".toList <:+ lowered)

section Regex

variable (unicodeAlnum : Char → Bool)

/-- `str.isalnum`, with the Unicode database's answer outside ASCII. -/
def isAlnum (c : Char) : Bool := if c.toNat < 128 then c.isAlphanum else unicodeAlnum c

def boundary : List Char → Bool
  | [] => true
  | c :: _ => !isAlnum unicodeAlnum c

def crtRegex (name : String) : Bool :=
  let lowered := name.toList.map Char.toLower
  lowered.tails.any fun rest => [".crt", ".pem", ".ca", "cert"].any fun word =>
    word.toList.isPrefixOf rest && boundary unicodeAlnum (rest.drop word.length)

end Regex

def readLimited (response : Response) : Except ImportError (Option (List ZipEntry)) :=
  if response.contentLength.any (fun length => decide (length > maxZipDownloadBytes)) then
    .error (.value "Configuration archive is too large to download safely.")
  else readChunks 0 response.reads
where
  readChunks (total : Nat) : List Nat → Except ImportError (Option (List ZipEntry))
    | [] => if response.readFails then .error .os else .ok response.archive
    | size :: rest =>
        if total + size > maxZipDownloadBytes then
          .error (.value "Configuration archive exceeds the download size limit.")
        else readChunks (total + size) rest

def makeZip : Option (List ZipEntry) → Except ImportError (List ZipEntry)
  | some infos => .ok infos
  | none => .error .os

def fetchZipArchive : Source → Except ImportError (List ZipEntry)
  | .folder _ => .error .os
  | .file isLink size archive =>
      if isLink then .error (.notZip "Symlink archives are not allowed.")
      else match size with
        | none => .error .os
        | some size =>
            if size > maxZipDownloadBytes then
              .error (.value "Configuration archive is too large to import safely.")
            else makeZip archive
  | .url scheme hardBlocked response =>
      if scheme ≠ "" ∧ scheme ≠ "https" then
        .error (.insecureSource "Insecure configuration source blocked: remote URLs must use HTTPS.")
      else if scheme = "" then .error (.fileNotFound "Configuration source was not found.")
      else if hardBlocked then
        .error
          (.insecureSource "Configuration sources on localhost or private network addresses are blocked.")
      else do
        let response ← response
        let archive ← readLimited response
        makeZip archive

/-- Everything but an insecure source is reported as a bad archive. -/
def loadZipArchive (source : Source) : Except ImportError (List ZipEntry) :=
  match fetchZipArchive source with
  | .error (.insecureSource message) => .error (.insecureSource message)
  | .error _ =>
      .error (.notZip "Configuration Source MUST be a valid HTTPS ZIP archive or accessible folder.")
  | .ok infos => .ok infos

def selected (entry : FolderEntry) : Bool :=
  entry.isFile && !entry.isLink &&
    (endsWith entry.name ".ovpn" || endsWith entry.name ".crt" || endsWith entry.name ".pem")

/-- The total size of what will be copied, `none` when a size cannot be read. -/
def scanFolder : List FolderEntry → Option Nat
  | [] => some 0
  | entry :: entries =>
      if selected entry then
        if entry.statFails then none else (scanFolder entries).map (entry.content.length + ·)
      else scanFolder entries

def copyFolder (dir : ConfigDir) (certs : List String) :
    List FolderEntry → ConfigDir × Except ImportError (List String)
  | [] => (dir, .ok certs)
  | entry :: entries =>
      if selected entry && isSafePath entry.name then
        match entry.part with
        | some part => (put dir entry.name part, .error .os)
        | none =>
            copyFolder (put dir entry.name entry.content)
              (if endsWith entry.name ".crt" || endsWith entry.name ".pem" then certs ++ [entry.name]
                else certs)
              entries
      else copyFolder dir certs entries

structure Extraction where
  dir : ConfigDir
  certs : List String := []
  total : Nat := 0
  seen : List String := []
  bomb : Bool := false

/-- The chunk loop: what is written, the new total, and whether the limit was passed. -/
def writeChunks (total : Nat) : List Bytes → Bytes × Nat × Bool
  | [] => ([], total, false)
  | chunk :: chunks =>
      if total + chunk.length > maxExtractedTotalBytes then (chunk, total + chunk.length, true)
      else
        let (rest, total, exceeded) := writeChunks (total + chunk.length) chunks
        (chunk ++ rest, total, exceeded)

section Import

variable (unicodeAlnum : Char → Bool)

/-- One entry into its opened output. The second part tells that the loop ends. -/
def extractEntry (x : Extraction) (info : ZipEntry) (name : String) : Extraction × Bool :=
  let (written, total, exceeded) := writeChunks x.total info.chunks
  let written := written ++ if info.readFails && !exceeded then info.torn else []
  let x := { x with total, bomb := x.bomb || exceeded }
  if info.closeFails || (info.readFails && !exceeded) then
    ({ x with dir := if info.removed then delete x.dir name else put x.dir name written }, false)
  else
    let x := { x with dir := put x.dir name written }
    if x.bomb then (x, true)
    else ({ x with certs := if crtRegex unicodeAlnum name then x.certs ++ [name] else x.certs }, false)

def extract (x : Extraction) : List ZipEntry → Extraction
  | [] => x
  | info :: infos =>
      let name := basename info.filename
      if name = "" ∨ name ∈ x.seen then extract x infos
      else
        let x := { x with seen := name :: x.seen }
        -- the name of the destination itself is safe and cannot be opened
        if !isSafePath name || name = "." || !info.opens then extract x infos
        else
          let (x, stop) := extractEntry unicodeAlnum x info name
          if stop then x else extract x infos

def extractInfo (x : Extraction) (info : ZipEntry) : Extraction × Bool :=
  let name := basename info.filename
  if name = "" ∨ name ∈ x.seen then (x, false)
  else
    let x := { x with seen := name :: x.seen }
    if !isSafePath name || name = "." || !info.opens then (x, false)
    else extractEntry unicodeAlnum x info name

theorem extract_cons (x : Extraction) (info : ZipEntry) (infos : List ZipEntry) :
    extract unicodeAlnum x (info :: infos) =
      if (extractInfo unicodeAlnum x info).2 then (extractInfo unicodeAlnum x info).1
      else extract unicodeAlnum (extractInfo unicodeAlnum x info).1 infos := by
  simp only [extract, extractInfo]
  by_cases hn : basename info.filename = "" ∨ basename info.filename ∈ x.seen
  · simp only [if_pos hn, Bool.false_eq_true, if_false]
  · simp only [if_neg hn]
    split
    · simp only [Bool.false_eq_true, if_false]
    · rfl

def importArchive (dir : ConfigDir) (infos : List ZipEntry) : ConfigDir × Except ImportError (List String) :=
  if infos.length > maxZipEntries then
    (dir, .error (.notZip "Configuration archive contains too many entries."))
  else
    let targets := infos.filter (fun info => ovpnRegex info.filename) ++
      infos.filter (fun info => crtRegex unicodeAlnum info.filename)
    let x := extract unicodeAlnum { dir } targets
    if x.bomb then
      (x.dir, .error (.notZip "Configuration archive appears to be a zip bomb and was rejected."))
    else (x.dir, .ok x.certs)

/-- `download_remote_to_destination` on a destination that can be prepared: what it
leaves there, and the certificate names or an exception. A folder that cannot be
listed or scanned is an ordinary empty result. -/
def download (source : Source) (dir : ConfigDir) : ConfigDir × Except ImportError (List String) :=
  match source with
  | .folder none => (dir, .ok [])
  | .folder (some listing) =>
      let entries := listing.insertionSort (fun e f => e.name ≤ f.name)
      match scanFolder entries with
      | none => (dir, .ok [])
      | some total =>
          if total > maxFolderImportTotalBytes then
            (dir, .error (.value "Configuration folder is too large to import safely."))
          else copyFolder dir [] entries
  | source =>
      match loadZipArchive source with
      | .error error => (dir, .error error)
      | .ok infos => importArchive unicodeAlnum dir infos

end Import

end EovpnPro.ConfigSource
