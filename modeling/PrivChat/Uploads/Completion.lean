import PrivChat.Uploads.Parts

/-!
Completing a chunked upload.

The parts are put end to end into a body, which is verified, published as a storage object and
recorded in the database, all under the lock of the session. Then the session gets a tombstone,
and only then are its parts deleted. A request that stops on the way is repeated from the start:
it finds out how far the one before it has come from the tombstone, from the row of the file id
reserved for the session, and from the object that it finds in the place where it wants to publish.

On the local file system a body is published by a hard link, so that for a while the body of the
session and the object are one file under two names.
-/

namespace PrivChat.Uploads

open Db Tasks
open Channels

abbrev SessionId := ℕ
abbrev FileId := ℕ
abbrev ObjectId := ℕ
/-- A file of the file system, whatever names it has. -/
abbrev Inode := ℕ

inductive FileType
  | image | video | voice | file | other
  deriving DecidableEq

def FileType.subdir : FileType → String
  | .image => "images"
  | .video => "videos"
  | .voice => "voices"
  | .file => "files"
  | .other => "others"

structure FrozenIdentity where
  plaintextSha256 : String
  plaintextSize : ℕ
  sealedSize : ℕ
  formatVersion : ℕ
  encryptionKeyId : ℕ
  chunkPlainSize : ℕ

structure Manifest where
  uploaderId : ℕ
  totalSize : ℕ
  plaintextSha256 : String
  plaintextSize : ℕ
  formatVersion : ℕ
  encryptionKeyId : ℕ
  chunkPlainSize : ℕ
  fileType : FileType
  businessType : String
  filename : String
  reservedFileId : FileId

def Manifest.frozen (m : Manifest) : FrozenIdentity :=
  ⟨m.plaintextSha256, m.plaintextSize, m.totalSize, m.formatVersion, m.encryptionKeyId,
    m.chunkPlainSize⟩

structure Location where
  storageSourceId : ℕ
  filePath : String
  deriving DecidableEq

structure ObjectRow where
  plaintextSha256 : String
  plaintextSize : ℕ
  sealedSha256 : String
  sealedSize : ℕ
  location : Location
  formatVersion : ℕ
  encryptionKeyId : ℕ
  deriving DecidableEq

structure FileRow where
  objectId : ObjectId
  uploaderId : ℕ
  fileType : FileType
  originalFilename : String
  businessType : String
  businessId : Option String
  deriving DecidableEq

structure FileMetadata where
  fileId : FileId
  row : FileRow
  object : ObjectRow

def hexDigits : List Char := "0123456789abcdef".toList

/-- The path of an object: by the type of the file, the digest of the stored bytes and the ending
of the name of the file. -/
def generateFilePath (contentSha256 : String) (t : FileType) (filename : String) : String :=
  let ending := String.ofList (filename.toList.reverse.takeWhile (· != '.')).reverse
  let hash := contentSha256.toList.map Char.toLower
  if hash.length < 4 || !hash.all hexDigits.contains then
    t.subdir ++ "/" ++ String.ofList hash ++ "." ++ ending
  else
    t.subdir ++ "/" ++ String.ofList (hash.take 2) ++ "/" ++ String.ofList ((hash.drop 2).take 2) ++
      "/" ++ String.ofList hash ++ "." ++ ending

structure SessionDir where
  parts : Option (Table Name Bytes)
  body : Option Inode
  /-- The tombstone under its temporary name, and under its own. -/
  completedTmp : Option FileId
  completed : Option FileId

structure Pending where
  object : Option (ObjectId × ObjectRow)
  file : Option (FileId × FileRow)

structure Database where
  objects : Table ObjectId ObjectRow
  files : Table FileId FileRow
  nextObjectId : ObjectId
  pending : Option Pending
  /-- The file ids of the rows committed, in order. -/
  committed : List FileId

structure World where
  sessions : SessionId → SessionDir
  contents : Inode → Bytes
  nextInode : Inode
  storage : Table Location Inode
  db : Database

namespace World

def setSession (w : World) (i : SessionId) (s : SessionDir) : World :=
  { w with sessions := Function.update w.sessions i s }

def setDb (w : World) (db : Database) : World := { w with db := db }

def objectAt (w : World) (l : Location) : Option Bytes := (w.storage.get l).map w.contents

/-- The disk of a session as the code sees it that works on its parts and its body. -/
def diskOf (w : World) (i : SessionId) : Disk :=
  ⟨(w.sessions i).parts, (w.sessions i).body.map w.contents⟩

end World

inductive PublishOutcome
  | published | alreadyPresent

inductive CompletedAct
  | writeTmp (f : FileId)
  | rename
  | syncDir

inductive Sql
  | getFile (f : FileId)
  | begin
  | setLockTimeout
  | lockContent (sha : String)
  | lockObject (id : ObjectId)
  | selectByPlaintext (sha : String)
  | selectObject (id : ObjectId)
  | insertObject (o : ObjectRow)
  | selectByLocation (l : Location)
  | insertFile (f : FileId) (row : FileRow)
  | getFileWithin (f : FileId)
  | commit

inductive Step
  | disk (i : SessionId) (op : Op)
  | readCompleted (i : SessionId)
  | completed (i : SessionId) (a : CompletedAct)
  | dropParts (i : SessionId)
  | readBody (i : SessionId)
  | publish (i : SessionId) (l : Location)
  | readObject (l : Location)
  | sql (q : Sql)

def Sql.Answer : Sql → Type
  | .getFile _ | .getFileWithin _ => Option FileMetadata
  | .begin | .setLockTimeout | .lockContent _ | .lockObject _ | .commit => Unit
  | .selectByPlaintext _ | .selectByLocation _ => Option (ObjectId × ObjectRow)
  | .selectObject _ => Option ObjectRow
  | .insertObject _ => Option ObjectId
  | .insertFile _ _ => Bool

def Step.Answer : Step → Type
  | .disk _ op => op.Answer
  | .readCompleted _ => Option FileId
  | .completed _ _ | .dropParts _ => Unit
  | .readBody _ => Bytes
  | .publish _ _ => PublishOutcome
  | .readObject _ => Option Bytes
  | .sql q => q.Answer

abbrev Step.Res (st : Step) : Type := Except IoError st.Answer

/-- What may go wrong with a step: it is refused and has perhaps done some of its work, or it is
done but the answer is lost. -/
inductive Fault
  | none
  | refused (text : String) (done : ℕ)
  | lost (text : String)

/-- A fault, and whether a publication copies the body. It does where it cannot link it. -/
structure Turn where
  fault : Fault
  copies : Bool

namespace Database

variable (db : Database)

def metadata (f : FileId) : Option FileMetadata := do
  let row ← db.files.get f
  let o ← db.objects.get row.objectId
  pure ⟨f, row, o⟩

def find (p : ObjectRow → Bool) : Option (ObjectId × ObjectRow) :=
  (db.objects.select fun _ o => p o).head?

/-- The object is in the database, or the transaction has just put it there. -/
def hasObject (t : Pending) (id : ObjectId) : Bool :=
  (db.objects.get id).isSome || (t.object.map (·.1) == some id)

def insertObject (t : Pending) (o : ObjectRow) : Except IoError (Option ObjectId) × Database :=
  if (db.find fun o' => o'.location == o.location).isSome then (.ok none, db)
  else if (db.find fun o' => o'.plaintextSha256 == o.plaintextSha256).isSome then
    (.error (.other "duplicate key value violates unique constraint"), db)
  else (.ok (some db.nextObjectId),
    { db with nextObjectId := db.nextObjectId + 1,
              pending := some { t with object := some (db.nextObjectId, o) } })

def insertFile (t : Pending) (f : FileId) (row : FileRow) : Except IoError Bool × Database :=
  if (db.files.get f).isSome then (.ok false, db)
  else if db.hasObject t row.objectId then
    (.ok true, { db with pending := some { t with file := some (f, row) } })
  else (.error (.other "insert violates foreign key constraint"), db)

def commit (t : Pending) : Database where
  objects := match t.object with
    | some (id, o) => db.objects.put id o
    | none => db.objects
  files := match t.file with
    | some (f, row) => db.files.put f row
    | none => db.files
  nextObjectId := db.nextObjectId
  pending := none
  committed := match t.file with
    | some (f, _) => db.committed ++ [f]
    | none => db.committed

/-- A statement within a transaction needs one that is open. -/
def within {α : Type} (g : Pending → Except IoError α × Database) : Except IoError α × Database :=
  match db.pending with
  | none => (.error (.other "connection closed"), db)
  | some t => g t

def perform : (q : Sql) → Except IoError q.Answer × Database
  | .getFile f => (.ok (db.metadata f), db)
  | .begin => (.ok (), { db with pending := some ⟨none, none⟩ })
  | .setLockTimeout | .lockContent _ | .lockObject _ => db.within fun _ => (.ok (), db)
  | .selectByPlaintext sha =>
    db.within fun _ => (.ok (db.find fun o => o.plaintextSha256 == sha), db)
  | .selectObject id => db.within fun _ => (.ok (db.objects.get id), db)
  | .insertObject o => db.within fun t => db.insertObject t o
  | .selectByLocation l => db.within fun _ => (.ok (db.find fun o => o.location == l), db)
  | .insertFile f row => db.within fun t => db.insertFile t f row
  | .getFileWithin f => db.within fun _ => (.ok (db.metadata f), db)
  | .commit => db.within fun t => (.ok (), db.commit t)

end Database

/-! ### What the other steps do -/

namespace World

variable (w : World)

/-- The body is opened anew. A file that is there keeps its names and loses its content. -/
def createBody (i : SessionId) : World :=
  match (w.sessions i).body with
  | some x => { w with contents := Function.update w.contents x [] }
  | none =>
    { w with
        sessions := Function.update w.sessions i { w.sessions i with body := some w.nextInode },
        contents := Function.update w.contents w.nextInode [],
        nextInode := w.nextInode + 1 }

def appendBody (i : SessionId) (b : Bytes) : World :=
  match (w.sessions i).body with
  | some x => { w with contents := Function.update w.contents x (w.contents x ++ b) }
  | none => w

def dropBody (i : SessionId) : World := w.setSession i { w.sessions i with body := none }

/-- What an operation on parts and body does here. -/
def act (i : SessionId) (a : Act) : Except IoError Unit × World :=
  match a with
  | .createBody => (.ok (), w.createBody i)
  | .appendBody b => (.ok (), w.appendBody i b)
  | .removeBody =>
    match (w.sessions i).body with
    | none => (.error .notFound, w)
    | some _ => (.ok (), w.dropBody i)
  | a => ((a.perform (w.diskOf i)).1,
      w.setSession i { w.sessions i with parts := (a.perform (w.diskOf i)).2.parts })

def actLeftBy (i : SessionId) (done : ℕ) (a : Act) : World :=
  match a with
  | .appendBody b => w.appendBody i (b.take done)
  | a => w.setSession i { w.sessions i with parts := (a.leftBy (w.diskOf i) done).parts }

/-- The body is linked to the place, or copied there, if nothing is there yet. -/
def publish (i : SessionId) (l : Location) (copies : Bool) : Except IoError PublishOutcome × World
    :=
  match (w.sessions i).body with
  | none => (.error .notFound, w)
  | some x =>
    if (w.storage.get l).isSome then (.ok .alreadyPresent, w)
    else if copies then
      (.ok .published,
        { w with storage := w.storage.put l w.nextInode,
                 contents := Function.update w.contents w.nextInode (w.contents x),
                 nextInode := w.nextInode + 1 })
    else (.ok .published, { w with storage := w.storage.put l x })

def completedAct (i : SessionId) : CompletedAct → Except IoError Unit × World
  | .writeTmp f => (.ok (), w.setSession i { w.sessions i with completedTmp := some f })
  | .rename =>
    match (w.sessions i).completedTmp with
    | none => (.error .notFound, w)
    | some f =>
      (.ok (), w.setSession i { w.sessions i with completedTmp := none, completed := some f })
  | .syncDir => (.ok (), w)

/-- The first files of the directory are deleted, or all, and the directory with them. -/
def dropParts (i : SessionId) (count : Option ℕ) : World :=
  w.setSession i { w.sessions i with
    parts := match count with
      | none => none
      | some n => (w.sessions i).parts.map fun t => (t.keyList.take n).foldl Table.erase t }

def readBody (i : SessionId) : Except IoError Bytes :=
  match (w.sessions i).body with
  | none => .error .notFound
  | some x => .ok (w.contents x)

end World

/-- The step, when nothing goes wrong. -/
def Step.perform (copies : Bool) (w : World) : (st : Step) → st.Res × World
  | .disk i .readDir => ((w.diskOf i).names, w)
  | .disk i (.readFile n) => ((w.diskOf i).read n, w)
  | .disk i (.act a) => w.act i a
  | .readCompleted i => (.ok (w.sessions i).completed, w)
  | .completed i a => w.completedAct i a
  | .dropParts i => (.ok (), w.dropParts i none)
  | .readBody i => (w.readBody i, w)
  | .publish i l => w.publish i l copies
  | .readObject l => (.ok (w.objectAt l), w)
  | .sql q => ((w.db.perform q).1, w.setDb (w.db.perform q).2)

/-- What a step leaves behind that is refused. A connection on which a statement fails takes its
transaction with it. -/
def Step.leftBy (w : World) (done : ℕ) : Step → World
  | .disk i (.act a) => w.actLeftBy i done a
  | .completed i (.writeTmp _) => w.setSession i { w.sessions i with completedTmp := none }
  | .dropParts i => w.dropParts i (some done)
  | .sql _ => w.setDb { w.db with pending := none }
  | .disk _ .readDir | .disk _ (.readFile _) | .readCompleted _ | .completed _ .rename
  | .completed _ .syncDir | .readBody _ | .publish _ _ | .readObject _ => w

def execStep (st : Step) (o : Turn) (w : World) : st.Res × World :=
  match o.fault with
  | .none => st.perform o.copies w
  | .refused e n => (.error (.other e), st.leftBy w n)
  | .lost e => (.error (.other e), (st.perform o.copies w).2)

/-! ### The request -/

inductive UploadCode
  | missingRanges | rangeOverlap | restartRequired | sessionGone | sessionBusy | sessionCompleted

inductive UploadError
  | server (e : ServerError)
  | serviceUnavailable (text : String)
  | coded (code : UploadCode) (status : ℕ) (text : String)

def internal (text : String) : UploadError := .server (.internal text)
def database (text : String) : UploadError := .server (.database text)

/-- What the requests rest on: the digest and the verification of contents, the keys there are,
the storage source in use, and the manifests of the sessions. The reserved file ids are drawn from
a sequence. -/
structure Server where
  sha256Hex : Bytes → String
  verifies : FrozenIdentity → Bytes → Bool
  hasKey : ℕ → Bool
  storageSourceId : ℕ
  manifest : SessionId → Manifest
  reserved_injective : Function.Injective fun i => (manifest i).reservedFileId

def Server.reserved (S : Server) (i : SessionId) : FileId := (S.manifest i).reservedFileId

abbrev Request (α : Type) := Prog Step Step.Res UploadError α

def orRefuse {α : Type} (wrap : IoError → UploadError) : Except IoError α → Request α
  | .ok a => .ret a
  | .error e => .fail (wrap e)

def Step.run (st : Step) (wrap : IoError → UploadError) : Request st.Answer :=
  .call st (orRefuse wrap)

def Step.quietly (st : Step) : Request Unit := .call st fun _ => .ret ()

def sql (q : Sql) (text : String) : Request q.Answer :=
  (Step.sql q).run fun e => database (text ++ e.display)

/-- A lock that cannot be had in time may be had later. -/
def lockTimeout : String := "canceling statement due to lock timeout"

def mapLockError (context : String) (e : IoError) : UploadError :=
  if e.display = lockTimeout then .serviceUnavailable (context ++ ": 锁等待超时，请重试")
  else database (context ++ ": " ++ e.display)

def lock (q : Sql) (context : String) : Request q.Answer := (Step.sql q).run (mapLockError context)

section Converge

structure ResolvedPlacement where
  objectId : ObjectId
  location : Location
  formatVersion : ℕ
  encryptionKeyId : ℕ
  duplicate : Bool

variable (o : ObjectRow)

/-- The object with the place of the upload is used. -/
def atTakenPlace : Option (ObjectId × ObjectRow) → Request ResolvedPlacement
  | some (id, o') => .ret ⟨id, o.location, o'.formatVersion, o'.encryptionKeyId, true⟩
  | none => .fail (database "回读同路径对象失败: no rows returned")

def afterInsertObject : Option ObjectId → Request ResolvedPlacement
  | some id => .ret ⟨id, o.location, o.formatVersion, o.encryptionKeyId, false⟩
  | none => sql (.selectByLocation o.location) "回读同路径对象失败: " >>= atTakenPlace o

/-- The object of the upload is put into the database, unless its place is taken. -/
def registerObject : Request ResolvedPlacement :=
  sql (.insertObject o) "登记物理对象失败: " >>= afterInsertObject o

def afterRecheck (id : ObjectId) : Option ObjectRow → Request ResolvedPlacement
  | some o' => .ret ⟨id, o'.location, o'.formatVersion, o'.encryptionKeyId, true⟩
  | none => registerObject o

/-- An object with the same plaintext is used, if it is still there under its lock. -/
def afterSearch : Option (ObjectId × ObjectRow) → Request ResolvedPlacement
  | some (id, _) => do
    lock (.lockObject id) "获取物理对象锁失败"
    sql (.selectObject id) "复查同内容对象失败: " >>= afterRecheck o id
  | none => registerObject o

def convergeUpload : Request ResolvedPlacement := do
  sql .setLockTimeout "设置锁等待上限失败: "
  lock (.lockContent o.plaintextSha256) "获取内容锁失败"
  sql (.selectByPlaintext o.plaintextSha256) "查询同内容对象失败: " >>= afterSearch o

end Converge

section Complete

variable (S : Server) (i : SessionId)

/-- The body of a session is no longer needed. -/
def dropStaging : Request Unit := (Step.disk i (.act .removeBody)).quietly

/-- After a publication the body is not needed. -/
def afterPublish : PublishOutcome → Request PublishOutcome
  | .published => do
    dropStaging i
    pure .published
  | .alreadyPresent => .ret .alreadyPresent

def publishStaged (l : Location) : Request PublishOutcome :=
  (Step.publish i l).run (fun e => internal ("发布对象失败: " ++ e.display)) >>= afterPublish i

variable (f : FileId) (row : FileRow) (written : ℕ) (o : ObjectRow) (businessId : Option String)

/-- The object that is there is the one to be published. -/
def isSameObject (there : Option Bytes) : Bool :=
  match there with
  | none => false
  | some content => content.length == o.sealedSize && S.sha256Hex content == o.sealedSha256

def ifSameObject (there : Option Bytes) : Request Unit :=
  if isSameObject S o there then dropStaging i
  else .fail (internal
    ("正式路径 " ++ o.location.filePath ++ " 上已有**不同内容**的对象，拒绝覆盖"))

/-- An object that is there from an earlier request is used if it has the content. -/
def settlePublished : PublishOutcome → Request Unit
  | .published => .ret ()
  | .alreadyPresent =>
    (Step.readObject o.location).run (fun e => internal ("核验已发布对象失败: " ++ e.display)) >>=
      ifSameObject S i o

def publishObject : Request Unit :=
  publishStaged i o.location >>= settlePublished S i o

/-- The row that is there already is the row of this upload. -/
def sameIdentity (existing : FileMetadata) (row : FileRow) : Bool :=
  existing.row.uploaderId == row.uploaderId && existing.row.objectId == row.objectId &&
    existing.row.fileType == row.fileType

def useRow : Option FileMetadata → Request FileMetadata
  | none => .fail (internal s!"主键冲突却读不到 {f}")
  | some existing =>
    if sameIdentity existing row then .ret existing
    else .fail (internal s!"file_id={f} 已被另一份内容占用（uploader/摘要/大小/类型不符）")

def afterInsertFile : Bool → Request FileMetadata
  | true => .ret ⟨f, row, o⟩
  | false => sql (.getFileWithin f) "查询上传记录失败: " >>= useRow f row

/-- The row of the file, or the row that was there already. -/
def recordFile : Request FileMetadata :=
  sql (.insertFile f row) "插入上传记录失败: " >>= afterInsertFile f row o

def rowOf (id : ObjectId) (businessId : Option String) : FileRow :=
  let m := S.manifest i
  ⟨id, m.uploaderId, m.fileType, m.filename, m.businessType, businessId⟩

/-- What is stored already is not published again. -/
def settleObject (p : ResolvedPlacement) : Request Unit :=
  if p.duplicate then dropStaging i else publishObject S i o

def recordAndCommit (p : ResolvedPlacement) : Request FileMetadata := do
  settleObject S i o p
  let file ← recordFile (S.reserved i) (rowOf S i p.objectId businessId)
    { o with location := p.location, formatVersion := p.formatVersion,
             encryptionKeyId := p.encryptionKeyId }
  sql .commit "提交上传收敛事务失败: "
  pure file

def publishAndRecord : Request FileMetadata := do
  sql .begin "开启上传收敛事务失败: "
  convergeUpload o >>= recordAndCommit S i o businessId

/-- The object of the upload, once its stored bytes have been verified. -/
def objectOf (content : Bytes) : ObjectRow :=
  let m := S.manifest i
  let sealed := S.sha256Hex content
  { plaintextSha256 := m.plaintextSha256
    plaintextSize := m.plaintextSize
    sealedSha256 := sealed
    sealedSize := written
    location := ⟨S.storageSourceId, generateFilePath sealed m.fileType m.filename⟩
    formatVersion := m.formatVersion
    encryptionKeyId := m.encryptionKeyId }

/-- The stored bytes are verified before they are published. -/
def afterReadBody (content : Bytes) : Request FileMetadata :=
  if S.verifies (S.manifest i).frozen content then
    publishAndRecord S i (objectOf S i written content) businessId
  else .fail (.server (.validation "附件校验失败"))

def commitChunkedUpload : Request FileMetadata :=
  (Step.readBody i).run (fun _ => .serviceUnavailable "读取待校验附件失败") >>=
    afterReadBody S i written businessId

def manifestMatches (file : FileMetadata) : Bool :=
  let m := S.manifest i
  file.row.uploaderId == m.uploaderId && file.row.fileType == m.fileType &&
    file.object.plaintextSize == m.plaintextSize &&
    file.object.plaintextSha256.toLower == m.plaintextSha256.toLower

def getFileMetadata : Request (Option FileMetadata) :=
  sql (.getFile f) "查询上传记录失败: "

def respondWith : Option FileMetadata → Request FileMetadata
  | none => .fail (internal s!"墓碑指向的 file_id={f} 读不到")
  | some file =>
    if manifestMatches S i file then .ret file
    else .fail (internal s!"file_id={f} 与本次上传的身份不符，拒绝返回")

/-- The upload has been completed before. -/
def completedResponse : Request FileMetadata := getFileMetadata f >>= respondWith S i f

def writeCompleted : Request Unit := do
  (Step.completed i (.writeTmp f)).run fun e => internal ("写 completed.json 失败: " ++ e.display)
  (Step.completed i .rename).run fun e => internal ("替换 completed.json 失败: " ++ e.display)
  (Step.completed i .syncDir).run fun e => internal ("同步目录失败: " ++ e.display)

def dropPayload : Request Unit := do
  (Step.dropParts i).quietly
  dropStaging i

/-- The operations on parts and body, in the directory of the session. -/
def inSession (op : Op) : Request (Op.Res op) := .call (.disk i op) .ret

def assembleRefused : AssembleError → UploadError
  | .missing rs =>
    let received := (S.manifest i).totalSize - (rs.map (·.length)).sum
    let total := (S.manifest i).totalSize
    .coded .missingRanges 409 s!"还有区间没传完（已收 {received} / {total} 字节），请 GET status 补齐"
  | .overlap => .coded .rangeOverlap 409 "分片区间有重叠，请 GET status 对齐"
  | .io e => .server e

def assembleBody : Request (ℕ × String) :=
  (assemble S.sha256Hex (S.manifest i).totalSize).within (inSession i) (assembleRefused S i)

/-- A tombstone that cannot be written does not matter, but the parts stay then. -/
def afterCompleted (file : FileMetadata) : Except UploadError Unit → Request FileMetadata
  | .ok () => do
    dropPayload i
    pure file
  | .error _ => .ret file

/-- The row is committed. -/
def finish (file : FileMetadata) : Request FileMetadata :=
  (writeCompleted i file.fileId).attempt >>= afterCompleted i file

def completeAnew : Request FileMetadata :=
  if S.hasKey (S.manifest i).encryptionKeyId then do
    let assembled ← assembleBody S i
    let file ← commitChunkedUpload S i assembled.1 businessId
    finish i file
  else .fail (.serviceUnavailable "服务端暂时无法校验该附件，请稍后重试")

/-- The row is there, the tombstone is not. -/
def recoverCompleted (file : FileMetadata) : Request FileMetadata :=
  if manifestMatches S i file then do
    writeCompleted i (S.reserved i)
    dropPayload i
    completedResponse S i (S.reserved i)
  else
    let f := S.reserved i
    .fail (internal s!"预留的 file_id={f} 已被另一份内容占用，拒绝继续")

def completeUnmarked : Option FileMetadata → Request FileMetadata
  | some file => recoverCompleted S i file
  | none => completeAnew S i businessId

def afterReadCompleted : Option FileId → Request FileMetadata
  | some f => completedResponse S i f
  | none => getFileMetadata (S.reserved i) >>= completeUnmarked S i businessId

def completeUpload : Request FileMetadata :=
  (Step.readCompleted i).run (fun e => internal ("读 completed.json 失败: " ++ e.display)) >>=
    afterReadCompleted S i businessId

end Complete

end PrivChat.Uploads
