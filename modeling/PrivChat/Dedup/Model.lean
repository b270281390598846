import PrivChat.Db.Routine
import PrivChat.Uploads.Completion

/-!
One object for one content.

An upload whose bytes have been verified is recorded in one transaction: `convergeUpload` looks for
an object of the same plaintext, under a lock on its digest, and registers the uploaded bytes only
if
there is none. Then the row of the file is put in, which refers to the object. A client that knows
the digest of a content may claim it without an upload: `claimExistingFile` looks the object up and
`createReference` puts in a row that refers to it.

The transactions run among each other, a statement at a time. A row that another transaction has
put in and not committed blocks the statement that would put in one with the same key.
-/

namespace PrivChat.Dedup

open Db Db.Tx Uploads
open Channels

structure Declared where
  plaintextSha256 : String
  plaintextSize : Option ℕ
  deriving DecidableEq

/-- The row of a file. What was declared for the file is not a column: the row is to refer to an
object of which it is true. -/
structure Reference where
  objectId : ObjectId
  uploaderId : ℕ
  fileType : FileType
  claimKeyHash : Option String
  declared : Declared
  deriving DecidableEq

structure Tables where
  objects : Table ObjectId ObjectRow
  files : Table FileId Reference

structure Metadata where
  fileId : FileId
  row : Reference
  object : ObjectRow

namespace Tables

variable (d : Tables)

def findObject (p : ObjectRow → Bool) : Option (ObjectId × ObjectRow) :=
  (d.objects.select fun _ o => p o).head?

def hasObject (p : ObjectRow → Bool) : Bool := d.objects.any fun _ o => p o

def findClaimed (uploaderId : ℕ) (key : String) : Option FileId :=
  (d.files.select fun _ r => r.uploaderId == uploaderId && r.claimKeyHash == some key).head?.map
    (·.1)

def metadata (f : FileId) : Option Metadata := do
  let row ← d.files.get f
  let o ← d.objects.get row.objectId
  pure ⟨f, row, o⟩

def putObject (id : ObjectId) (o : ObjectRow) : Tables := { d with objects := d.objects.put id o }

def putFile (f : FileId) (row : Reference) : Tables := { d with files := d.files.put f row }

end Tables

/-- Advisory locks share one range of keys. The others are those of unique indexes. -/
inductive LockKey
  | advisory (n : ℤ)
  | objectId (id : ObjectId)
  | digest (sha256 : String)
  | location (l : Location)
  | fileId (f : FileId)
  | claimKey (uploaderId : ℕ) (key : String)
  deriving DecidableEq

/-- What comes from outside the transaction: the next value of a sequence, and whether the bytes
could be published. -/
structure Outside where
  nextval : ℕ
  published : Bool

abbrev Code (α : Type) := Tx Tables LockKey Outside UploadError α

structure Upload where
  fileId : FileId
  uploaderId : ℕ
  fileType : FileType
  plaintextSha256 : String
  plaintextSize : ℕ
  sealedSha256 : String
  sealedSize : ℕ
  location : Location
  formatVersion : ℕ
  encryptionKeyId : ℕ

def Upload.object (u : Upload) : ObjectRow :=
  ⟨u.plaintextSha256, u.plaintextSize, u.sealedSha256, u.sealedSize, u.location, u.formatVersion,
    u.encryptionKeyId⟩

def isSha256 (text : String) : Bool := text.length == 64 && text.toList.all hexDigits.contains

/-- The check constraints of the table of objects. -/
def checksPass (o : ObjectRow) : Bool :=
  isSha256 o.plaintextSha256 && isSha256 o.sealedSha256 && o.formatVersion == 1 &&
    o.encryptionKeyId ≤ 255

section Converge

variable (hashtext : String → ℤ)

def readByLocation (u : Upload) : Code ResolvedPlacement := do
  match ← query (·.findObject fun o => o.location == u.location) with
  | some (id, o) => return ⟨id, u.location, o.formatVersion, o.encryptionKeyId, true⟩
  | none => fail (database "回读同路径对象失败: no rows returned")

def insertObject (u : Upload) : Code ResolvedPlacement := do
  let clash ← query (·.hasObject fun o => o.plaintextSha256 == u.plaintextSha256)
  ensure (!clash) (database "登记物理对象失败: duplicate key")
  let id ← observe (·.nextval)
  acquire (.objectId id)
  let used ← query fun d => (d.objects.get id).isSome
  ensure (!used) (database "登记物理对象失败: duplicate key")
  update (·.putObject id u.object)
  return ⟨id, u.location, u.formatVersion, u.encryptionKeyId, false⟩

/-- The insert does nothing if there is an object at the location. -/
def registerObject (u : Upload) : Code ResolvedPlacement := do
  ensure (checksPass u.object) (database "登记物理对象失败: violates check constraint")
  acquire (.location u.location)
  acquire (.digest u.plaintextSha256)
  match ← query (·.hasObject fun o => o.location == u.location) with
  | true => readByLocation u
  | false => insertObject u

def convergeUpload (u : Upload) : Code ResolvedPlacement := do
  acquire (.advisory (hashtext u.plaintextSha256))
  match ← query (·.findObject fun o => o.plaintextSha256 == u.plaintextSha256) with
  | none => registerObject u
  | some (id, _) =>
    acquire (.advisory id)
    match ← query (·.objects.get id) with
    | some o => return ⟨id, o.location, o.formatVersion, o.encryptionKeyId, true⟩
    | none => registerObject u

end Converge

inductive Answer
  | file (m : Metadata)
  | duplicateObject

variable (c : Claim) (u : Upload) (id : ObjectId)

def Upload.reference : Reference :=
  ⟨id, u.uploaderId, u.fileType, none, ⟨u.plaintextSha256, some u.plaintextSize⟩⟩

/-- Whether the row has been put in. There may be one with this id. -/
def insertWithin : Code Bool := do
  acquire (.fileId u.fileId)
  match ← query fun d => (d.files.get u.fileId).isSome with
  | true => return false
  | false =>
    let linked ← query fun d => (d.objects.get id).isSome
    ensure linked (database "插入上传记录失败: violates foreign key constraint")
    update (·.putFile u.fileId (u.reference id))
    return true

/-- There is a row with the id of the file: it must be that of the same upload. -/
def readBack : Code Metadata := do
  let f := u.fileId
  let existing ← query (·.metadata f)
  let m ← orFail existing (internal s!"主键冲突却读不到 {f}")
  ensure (m.row.uploaderId == u.uploaderId && m.row.objectId == id && m.row.fileType == u.fileType)
    (internal s!"file_id={f} 已被另一份内容占用（uploader/摘要/大小/类型不符）")
  return m

def recordFile (p : ResolvedPlacement) : Code Answer := do
  match ← insertWithin u p.objectId with
  | true =>
    done
    return .file ⟨u.fileId, u.reference p.objectId, { u.object with
      location := p.location, formatVersion := p.formatVersion, encryptionKeyId := p.encryptionKeyId
        }⟩
  | false =>
    let m ← readBack u p.objectId
    done
    return .file m

/-- The bytes are published only if they are to be an object of their own. -/
def publishStaged (p : ResolvedPlacement) : Code Unit :=
  if p.duplicate then .ret ()
  else do
    let published ← observe (·.published)
    ensure published (internal "发布失败")

def publishAndRecord (hashtext : String → ℤ) (u : Upload) : Code Answer := do
  let p ← convergeUpload hashtext u
  publishStaged p
  recordFile u p

/-- The bytes are already where they belong. -/
def recordS3Published (hashtext : String → ℤ) (u : Upload) (allowDuplicate : Bool) : Code Answer :=
    do
  let p ← convergeUpload hashtext u
  if p.duplicate && !allowDuplicate then return .duplicateObject
  else recordFile u p

/-! ### Claiming -/

inductive Purpose
  | claimExisting | upload
  deriving DecidableEq

structure UploadToken where
  purpose : Purpose
  userId : ℕ
  plaintextSha256 : Option String
  plaintextSize : Option ℕ
  fileType : FileType

/-- A request to claim a content: the token, what it is when it is valid, and the digest that the
client has sent with it. -/
structure Claim where
  userId : ℕ
  token : String
  validated : Option UploadToken
  requestSha256 : String

def lowered (text : String) : String := String.ofList (text.toList.map Char.toLower)

def trimmed (text : String) : String :=
  String.ofList ((text.toList.dropWhile Char.isWhitespace).reverse.dropWhile
    Char.isWhitespace).reverse

def UploadToken.declared (t : UploadToken) (bound : String) : Declared :=
  ⟨lowered (trimmed bound), t.plaintextSize⟩

def server (e : ServerError) : UploadError := .server e

def noContent : UploadError := server (.notFound "服务端没有这份内容，请正常上传")

/-- Nothing is put in if the claim key has a row. -/
def insertReference (f : FileId) (row : Reference) : Option String → Code Unit
  | none => insertRow
  | some key => do
    acquire (.claimKey row.uploaderId key)
    match ← query fun d => (d.findClaimed row.uploaderId key).isSome with
    | true => return ()
    | false => insertRow
where
  insertRow : Code Unit := do
    acquire (.fileId f)
    let used ← query fun d => (d.files.get f).isSome
    ensure (!used) (database "创建秒传记录失败: duplicate key")
    let linked ← query fun d => (d.objects.get row.objectId).isSome
    ensure linked (database "创建秒传记录失败: violates foreign key constraint")
    update (·.putFile f row)

def readClaimed (f : FileId) (uploaderId : ℕ) : Option String → Code FileId
  | none => .ret f
  | some key => do
    let found ← query (·.findClaimed uploaderId key)
    return found.getD f

def createReference (uploaderId : ℕ) (fileType : FileType) (declared : Declared)
    (key : Option String) : Code FileId := do
  let f ← observe (·.nextval)
  acquire (.advisory id)
  match ← query fun d => (d.objects.get id).isSome with
  | false =>
    undo
    fail noContent
  | true =>
    insertReference f ⟨id, uploaderId, fileType, key, declared⟩ key
    let f' ← readClaimed f uploaderId key
    done
    return f'

/-- The object that the token allows its holder to refer to. -/
def checkToken : Except UploadError (UploadToken × String) := do
  let t ← match c.validated with
    | some t => .ok t
    | none => .error (server (.validation "上传 token 无效或已过期"))
  if t.purpose ≠ .claimExisting then
    .error (server (.validation "该 token 用于实体上传，不能用于秒传取用"))
  else if t.userId ≠ c.userId then .error (server (.forbidden "上传 token 不属于当前用户"))
  else
    match t.plaintextSha256 with
    | none => .error (server (.validation "该 token 未绑定内容摘要"))
    | some bound =>
      if lowered bound ≠ lowered (trimmed c.requestSha256) then
        .error (server (.validation "sha256 与 token 绑定的内容不一致"))
      else if !isSha256 (lowered (trimmed bound)) then
        .error (server (.validation "sha256 必须是 64 位十六进制（SHA-256）"))
      else .ok (t, bound)

def claimAnew (key : String) : Code Answer := do
  match checkToken c with
  | .error e => fail e
  | .ok (t, bound) =>
    let found ← snapshot (·.findObject fun o => o.plaintextSha256 == lowered (trimmed bound))
    let (id, _) ← orFail found noContent
    let f ← createReference id c.userId t.fileType (t.declared bound) (some key)
    let m ← snapshot (·.metadata f)
    let m ← orFail m (internal s!"秒传记录 {f} 刚写入却读不到")
    return .file m

def claimExistingFile (claimKeyHash : String → String) (c : Claim) : Code Answer := do
  let key := claimKeyHash c.token
  match ← snapshot (·.findClaimed c.userId key) with
  | none => claimAnew c key
  | some f =>
    match ← snapshot (·.metadata f) with
    | some m => return .file m
    | none => claimAnew c key

/-- The hash functions: that of the database for its advisory locks, and that of tokens. -/
structure Hashes where
  hashtext : String → ℤ
  claimKeyHash : String → String

inductive Job
  | publish (u : Upload)
  | recordS3 (u : Upload) (allowDuplicate : Bool)
  | claim (c : Claim)

def Job.code (H : Hashes) : Job → Code Answer
  | .publish u => publishAndRecord H.hashtext u
  | .recordS3 u allowDuplicate => recordS3Published H.hashtext u allowDuplicate
  | .claim c => claimExistingFile H.claimKeyHash c

end PrivChat.Dedup
