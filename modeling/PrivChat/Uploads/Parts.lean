import PrivChat.Channels.Model
import PrivChat.Ranges.Cover
import PrivChat.Tasks.Crash
import PrivChat.Text.Decimal
import Mathlib.Data.List.Sort

/-!
The parts of a chunked upload on disk.

Every part of a session is a file of its own, in the directory `parts` of the session, and its
name says which bytes of the upload it holds. There is no other record of what has been received:
the directory is scanned for it. A part is written under a temporary name and gets its name by a
rename. When no bytes are missing the parts are put end to end.
-/

namespace PrivChat.Uploads

open Db Tasks Ranges Text
open Channels

abbrev Bytes := List UInt8

abbrev Name := List Char

/-- `{offset}-{length}` -/
def stem (r : Range) : Name := decimal r.offset ++ '-' :: decimal r.length

def partEnding : Name := ['.', 'p', 'a', 'r', 't']
def tmpEnding : Name := ['.', 't', 'm', 'p']

/-- `{offset}-{length}.part` -/
def partName (r : Range) : Name := stem r ++ partEnding

/-- `.{offset}-{length}.tmp` -/
def tmpName (r : Range) : Name := '.' :: (stem r ++ tmpEnding)

/-- The range a file is for, if it is a part. -/
def rangeOfName (name : Name) : Option Range := do
  let s ← stripSuffix partEnding name
  let (o, l) ← splitOnce '-' s
  let offset ← parseU64 o
  let length ← parseU64 l
  pure ⟨offset, length⟩

/-! ### The disk -/

inductive IoError
  | notFound
  | alreadyExists
  | other (text : String)

def IoError.display : IoError → String
  | .notFound => "No such file or directory (os error 2)"
  | .alreadyExists => "File exists (os error 17)"
  | .other text => text

/-- The directory `parts` of a session, if it is there, and the file `body.complete.tmp`. -/
structure Disk where
  parts : Option (Table Name Bytes)
  body : Option Bytes

namespace Disk

def new : Disk := ⟨some .empty, none⟩

def file (d : Disk) (n : Name) : Option Bytes := d.parts.bind fun t => t.get n

def modifyParts (d : Disk) (f : Table Name Bytes → Table Name Bytes) : Disk :=
  { d with parts := d.parts.map f }

end Disk

/-- What is done to files. -/
inductive Act
  | createNew (n : Name)
  | writeAll (n : Name) (b : Bytes)
  | syncFile (n : Name)
  | rename (n n' : Name)
  | syncDir
  | remove (n : Name)
  | createBody
  | appendBody (b : Bytes)
  | syncBody
  | removeBody

inductive Op
  | readDir
  | readFile (n : Name)
  | act (a : Act)

def Op.Answer : Op → Type
  | .readDir => List Name
  | .readFile _ => Bytes
  | .act _ => Unit

abbrev Op.Res (op : Op) : Type := Except IoError op.Answer

/-- An operation is done, or the system refuses it. A write that is refused may have written
some of its bytes. -/
inductive Outcome
  | done
  | refused (text : String) (written : ℕ)

/-- The operation, as far as the state of the disk lets it be done. -/
def Act.perform (d : Disk) : Act → Except IoError Unit × Disk
  | .createNew n =>
    match d.parts with
    | none => (.error .notFound, d)
    | some t =>
      if (t.get n).isSome then (.error .alreadyExists, d)
      else (.ok (), d.modifyParts (·.put n []))
  | .writeAll n b => (.ok (), d.modifyParts (·.modify n (· ++ b)))
  | .syncFile _ | .syncDir | .syncBody => (.ok (), d)
  | .rename n n' =>
    match d.file n with
    | none => (.error .notFound, d)
    | some b => (.ok (), d.modifyParts fun t => (t.erase n).put n' b)
  | .remove n =>
    match d.file n with
    | none => (.error .notFound, d)
    | some _ => (.ok (), d.modifyParts (·.erase n))
  | .createBody => (.ok (), { d with body := some [] })
  | .appendBody b => (.ok (), { d with body := d.body.map (· ++ b) })
  | .removeBody =>
    match d.body with
    | none => (.error .notFound, d)
    | some _ => (.ok (), { d with body := none })

/-- What a refused operation leaves behind. -/
def Act.leftBy (d : Disk) (written : ℕ) : Act → Disk
  | .writeAll n b => d.modifyParts (·.modify n (· ++ b.take written))
  | .appendBody b => { d with body := d.body.map (· ++ b.take written) }
  | .createNew _ | .syncFile _ | .rename _ _ | .syncDir | .remove _ | .createBody | .syncBody
  | .removeBody => d

def Disk.names (d : Disk) : Except IoError (List Name) :=
  match d.parts with
  | none => .error .notFound
  | some t => .ok t.keyList

def Disk.read (d : Disk) (n : Name) : Except IoError Bytes :=
  match d.file n with
  | none => .error .notFound
  | some b => .ok b

def exec : (op : Op) → Outcome → Disk → op.Res × Disk
  | .readDir, .done, d => (d.names, d)
  | .readFile n, .done, d => (d.read n, d)
  | .act a, .done, d => a.perform d
  | .readDir, .refused e _, d => (.error (.other e), d)
  | .readFile _, .refused e _, d => (.error (.other e), d)
  | .act a, .refused e written, d => (.error (.other e), a.leftBy d written)

abbrev Code (ε α : Type) := Prog Op Op.Res ε α

section

variable {ε α : Type} (wrap : IoError → ε) (io : ServerError → ε)

def orFail : Except IoError α → Code ε α
  | .ok a => .ret a
  | .error e => .fail (wrap e)

def act (a : Act) : Code ε Unit := .call (.act a) (orFail wrap)

def readFile (n : Name) : Code ε Bytes := .call (.readFile n) (orFail wrap)

/-- The result does not matter. -/
def quietly (a : Act) : Code ε Unit := .call (.act a) fun _ => .ret ()

def sortByOffset (rs : List Range) : List Range := rs.insertionSort fun r r' => r.offset ≤ r'.offset

/-- The names that are names of parts, sorted. A directory that is not there has none. -/
def partsOfNames : Except IoError (List Name) → Code ε (List Range)
  | .ok names => .ret (sortByOffset (names.filterMap rangeOfName))
  | .error .notFound => .ret []
  | .error e => .fail (io (.internal ("扫描 parts 失败: " ++ e.display)))

def scanParts : Code ε (List Range) := .call .readDir (partsOfNames io)

structure Status where
  received : List Range
  missing : List Range
  receivedBytes : ℕ

def statusOf (total : ℕ) (parts : List Range) : Status where
  received := join parts
  missing := gaps total 0 (join parts)
  receivedBytes := (parts.map (·.length)).sum

def status (total : ℕ) : Code ε Status := do
  let parts ← scanParts io
  pure (statusOf total parts)

end

/-! ### Writing a part -/

inductive PartOutcome
  | written | alreadyPresent
  deriving DecidableEq

inductive ChunkError
  | outOfRange (text : String)
  | notAligned (text : String)
  | digest
  | overlap (text : String)
  | io (e : ServerError)
  deriving DecidableEq

def baseUnit : ℕ := 64 * 1024

/-- The text without white space around it, in small letters. -/
def normalised (s : String) : String :=
  let trimmed := (s.toList.dropWhile Char.isWhitespace).reverse.dropWhile Char.isWhitespace
  String.ofList (trimmed.reverse.map Char.toLower)

section Write

variable (sha256Hex : Bytes → String) (total : ℕ)

/-- What is checked before anything is read from the disk. -/
def checkPart (offset : ℕ) (bytes : Bytes) (declared : String) : Except ChunkError Unit :=
  let length := bytes.length
  let stop := offset + length
  if length = 0 then .error (.outOfRange "分片不能为空")
  else if 2 ^ 64 ≤ stop then .error (.outOfRange "分片区间溢出")
  else if total < stop then
    .error (.outOfRange s!"分片区间 [{offset}, {stop}) 越过总大小 {total}")
  else if offset % baseUnit ≠ 0 ∨ stop ≠ total ∧ length % baseUnit ≠ 0 then
    .error (.notAligned s!"分片 [{offset}, {stop}) 未按 {baseUnit} 字节网格对齐")
  else if normalised declared ≠ sha256Hex bytes then .error .digest
  else .ok ()

variable (r : Range) (bytes : Bytes)

/-- A part of that very range is there: it is the same part if the digests agree. -/
def compareContent (existing : Bytes) : Code ChunkError (Option PartOutcome) :=
  if sha256Hex existing = sha256Hex bytes then .ret (some .alreadyPresent)
  else .fail (.overlap s!"分片 [{r.offset}, {r.stop}) 已存在且内容不同")

def unreadable (n : Name) (e : IoError) : ChunkError :=
  .io (.internal ("打开 " ++ String.ofList n ++ " 失败: " ++ e.display))

def compareParts (r : Range) (bytes : Bytes) : List Range → Code ChunkError (Option PartOutcome)
  | [] => .ret none
  | p :: ps =>
    if p.offset = r.offset ∧ p.length = r.length then
      readFile (unreadable (partName r)) (partName r) >>= compareContent sha256Hex r bytes
    else if p.offset < r.stop ∧ r.offset < p.stop then
      .fail (.overlap
        s!"分片 [{r.offset}, {r.stop}) 与已收 [{p.offset}, {p.stop}) 边界重叠")
    else compareParts r bytes ps

def writeFailed (e : IoError) : ChunkError := .io (.internal ("写分片失败: " ++ e.display))

/-- The file is written under a temporary name that must be free, and then renamed. -/
def storeSteps : Code ChunkError Unit := do
  act writeFailed (.createNew (tmpName r))
  act writeFailed (.writeAll (tmpName r) bytes)
  act writeFailed (.syncFile (tmpName r))
  act writeFailed (.rename (tmpName r) (partName r))
  act writeFailed .syncDir

/-- After a failure the temporary file is removed. -/
def afterStore : Except ChunkError Unit → Code ChunkError PartOutcome
  | .ok () => .ret .written
  | .error e => do
    quietly (.remove (tmpName r))
    .fail e

def store : Code ChunkError PartOutcome :=
  (storeSteps r bytes).attempt >>= afterStore r

def storeUnlessKnown : Option PartOutcome → Code ChunkError PartOutcome
  | some outcome => .ret outcome
  | none => store r bytes

def writePart (offset : ℕ) (bytes : Bytes) (declared : String) : Code ChunkError PartOutcome :=
  match checkPart sha256Hex total offset bytes declared with
  | .error e => .fail e
  | .ok () => do
    let parts ← scanParts .io
    let known ← compareParts sha256Hex ⟨offset, bytes.length⟩ bytes parts
    storeUnlessKnown ⟨offset, bytes.length⟩ bytes known

end Write

inductive AssembleError
  | missing (rs : List Range)
  | overlap
  | io (e : ServerError)
  deriving DecidableEq

def assembleFailed (e : IoError) : AssembleError := .io (.internal ("拼接分片失败: " ++ e.display))

/-- The parts are read and appended in turn. What has been read goes through the digest as well. -/
def concatParts (sofar : Bytes) : List Range → Code AssembleError Bytes
  | [] => .ret sofar
  | p :: ps => do
    let content ← readFile assembleFailed (partName p)
    act assembleFailed (.appendBody content)
    concatParts (sofar ++ content) ps

def concatSteps (parts : List Range) : Code AssembleError Bytes := do
  act assembleFailed .createBody
  let all ← concatParts [] parts
  act assembleFailed .syncBody
  pure all

section Assemble

variable (sha256Hex : Bytes → String) (total : ℕ)

/-- The size and the digest of the assembled file. After a failure the file is removed. -/
def afterConcat : Except AssembleError Bytes → Code AssembleError (ℕ × String)
  | .ok all => .ret (total, sha256Hex all)
  | .error e => do
    quietly .removeBody
    .fail e

def assemble : Code AssembleError (ℕ × String) := do
  let st ← status .io total
  if !st.missing.isEmpty then .fail (.missing st.missing)
  else if st.received ≠ [⟨0, total⟩] then .fail .overlap
  else do
    let parts ← scanParts .io
    (concatSteps parts).attempt >>= afterConcat sha256Hex total

end Assemble

end PrivChat.Uploads
