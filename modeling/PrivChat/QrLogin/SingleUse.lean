import PrivChat.Redis.Store
import PrivChat.Tasks.Places

/-!
Login by QR code: the scenes and the calls that move them on.

A scene is created by a web page, scanned by an app, and then confirmed or rejected there. It is
kept in Redis under its id, and every call reads it, checks it and writes it back. Between the read
and the write of one call another may write the same scene, and what it has written is then lost.
Where every write finds the scene as its call has read it, a scene goes its way once: it is scanned
by one call, and settled by one call, which presents the token of that scan.
-/

namespace PrivChat.QrLogin

open Tasks

abbrev SceneId := String
abbrev UserId := ℕ
abbrev Millis := ℤ

inductive QrSceneState
  | created | scanned | authorized | rejected | expired
  deriving DecidableEq

namespace QrSceneState

/-- How an error shows the state. -/
def debug : QrSceneState → String
  | .created => "Created"
  | .scanned => "Scanned"
  | .authorized => "Authorized"
  | .rejected => "Rejected"
  | .expired => "Expired"

/-- A state that time does not change. -/
def isFinal : QrSceneState → Bool
  | .authorized | .rejected | .expired => true
  | .created | .scanned => false

end QrSceneState

structure WebDeviceSnapshot where
  deviceName : Option String
  userAgent : Option String
  ipAddress : Option String
  deriving DecidableEq

structure QrScene where
  sceneId : SceneId
  qrToken : String
  purpose : String
  state : QrSceneState
  webDeviceId : String
  webDeviceInfo : WebDeviceSnapshot
  createdAt : Millis
  expiresAt : Millis
  scannedAt : Option Millis
  scannerUid : Option UserId
  scannerDeviceId : Option String
  scannerAvatar : Option String
  scannerDisplayName : Option String
  confirmToken : Option String
  confirmTokenConsumed : Bool
  deriving DecidableEq

inductive QrError
  | internal (text : String)
  | notFound (text : String)
  | duplicate (text : String)
  | validation (text : String)
  | permissionDenied (text : String)
  deriving DecidableEq

structure ScanRequest where
  sceneId : SceneId
  scannerUid : UserId
  scannerDeviceId : String
  qrToken : String
  scannerAvatar : Option String
  scannerDisplayName : Option String
  deriving DecidableEq

namespace QrScene

def scannedTtlSecs : ℤ := 60

variable (scene : QrScene) (now : Millis)

def expireIfDue : QrScene :=
  if scene.state.isFinal then scene
  else if scene.expiresAt ≤ now then { scene with state := .expired }
  else scene

/-- The scene once it is scanned. The time it has starts anew. -/
def scannedBy (r : ScanRequest) (now : Millis) (confirmToken : String) : QrScene :=
  { scene with
    state := .scanned
    scannedAt := some now
    scannerUid := some r.scannerUid
    scannerDeviceId := some r.scannerDeviceId
    scannerAvatar := r.scannerAvatar
    scannerDisplayName := r.scannerDisplayName
    confirmToken := some confirmToken
    confirmTokenConsumed := false
    expiresAt := now + scannedTtlSecs * 1000 }

/-- The scene once it is confirmed or rejected. -/
def settledAs (state : QrSceneState) : QrScene :=
  { scene with state := state, confirmTokenConsumed := true }

def ttlSecsFor : ℕ :=
  (max ((scene.expiresAt - now).tdiv 1000) 1).toNat

lemma ttlSecsFor_pos : 0 < scene.ttlSecsFor now := by
  unfold ttlSecsFor
  omega

def stateInvalid (expected : String) (scene : QrScene) : QrError :=
  .duplicate s!"QR_SCENE_STATE_INVALID: expected {expected}, got {scene.state.debug}"

def tokenInvalid : QrError :=
  .validation "QR_CONFIRM_TOKEN_INVALID: confirm_token 无效或已消费"

/-- The token is the one that was handed out, and nobody has used it. -/
def acceptsToken (confirmToken : String) : Bool :=
  scene.confirmToken.any fun t => decide (t = confirmToken) && !scene.confirmTokenConsumed

def ensureScannedWithToken (scannerUid : UserId) (scannerDeviceId : String)
    (confirmToken : String) : Except QrError Unit :=
  if scene.state ≠ .scanned then .error (scene.stateInvalid "scanned")
  else if scene.scannerUid ≠ some scannerUid then
    .error (.permissionDenied "QR_SCANNER_MISMATCH: scanner_uid 与扫码者不一致")
  else if scene.scannerDeviceId ≠ some scannerDeviceId then
    .error (.permissionDenied "QR_SCANNER_MISMATCH: scanner_device_id 与扫码者不一致")
  else if !scene.acceptsToken confirmToken then .error tokenInvalid
  else .ok ()

/-- What `reject_scene` checks: the same, without the device. -/
def ensureRejectable (scannerUid : UserId) (confirmToken : String) : Except QrError Unit :=
  if scene.state ≠ .scanned then .error (scene.stateInvalid "scanned")
  else if scene.scannerUid ≠ some scannerUid then
    .error (.permissionDenied "QR_SCANNER_MISMATCH: scanner_uid 与扫码者不一致")
  else if !scene.acceptsToken confirmToken then .error tokenInvalid
  else .ok ()

end QrScene

abbrev SceneStore := Redis.Store SceneId QrScene ℕ ℕ

/-- A write also says what scene the call has read. That is not sent to Redis. -/
inductive Op
  | get (id : SceneId)
  | now
  | newUuid
  | setex (old scene : QrScene) (seconds : ℕ)

abbrev Answer (β : Type) := Except String β

def Op.Res : Op → Type
  | .get _ => Answer (Option QrScene)
  | .now => Millis
  | .newUuid => String
  | .setex _ _ _ => Answer Unit

/-- The time, the uuid that is drawn, and the error a command ends with. The answer of one that was
carried out may be lost. -/
structure Moment where
  now : Millis
  uuid : String
  fault : Option String
  applied : Bool

namespace Moment

def takesEffect (o : Moment) : Bool := o.fault.isNone || o.applied

def answer {β : Type} (o : Moment) (b : β) : Answer β :=
  match o.fault with
  | none => .ok b
  | some e => .error e

end Moment

def exec : (op : Op) → Moment → SceneStore → op.Res × SceneStore
  | .get id, o, s => (o.answer (s.get id), s)
  | .now, o, s => (o.now, s)
  | .newUuid, o, s => (o.uuid, s)
  | .setex _ scene seconds, o, s =>
    (o.answer (), if o.takesEffect then s.effect (.setex scene.sceneId seconds scene) else s)

abbrev QrProg := Prog Op Op.Res QrError

inductive Reply
  | scanned (scene : QrScene) (confirmToken : String)
  | settled (scene : QrScene)
  deriving DecidableEq

variable (r : ScanRequest) (id : SceneId)

def afterGet : Answer (Option QrScene) → QrProg QrScene
  | .error e => .fail (.internal s!"Redis GET failed: {e}")
  | .ok none => .fail (.notFound s!"QR_SCENE_NOT_FOUND: {id}")
  | .ok (some scene) =>
    if scene.state.isFinal then .ret scene
    else .call .now fun now => .ret (scene.expireIfDue now)

def loadScene : QrProg QrScene := .call (.get id) (afterGet id)

def afterSetex : Answer Unit → QrProg Unit
  | .ok _ => .ret ()
  | .error e => .fail (.internal s!"Redis SETEX failed: {e}")

/-- The scene goes back in the place of the one that was read. -/
def storeScene (old scene : QrScene) : QrProg Unit :=
  .call .now fun now => .call (.setex old scene (scene.ttlSecsFor now)) afterSetex

/-- The token the scanner has to present. -/
def confirmTokenOf (uuid : String) : String := s!"ct_{uuid}"

def writeScanned (scene : QrScene) : QrProg Reply :=
  .call .now fun now => .call .newUuid fun uuid => do
    let scanned := scene.scannedBy r now (confirmTokenOf uuid)
    storeScene scene scanned
    return .scanned scanned (confirmTokenOf uuid)

def scanLoaded (scene : QrScene) : QrProg Reply :=
  if scene.state ≠ .created then .fail (scene.stateInvalid "created")
  else if scene.qrToken ≠ r.qrToken then
    .fail (.validation "QR_TOKEN_MISMATCH: qr_token 与场景不匹配")
  else writeScanned r scene

def scanScene : QrProg Reply := do
  let scene ← loadScene r.sceneId
  scanLoaded r scene

/-- Writes the scene in its new state, if the check has passed. -/
def settleIf (state : QrSceneState) (scene : QrScene) : Except QrError Unit → QrProg Reply
  | .error e => .fail e
  | .ok _ => do
    storeScene scene (scene.settledAs state)
    return .settled (scene.settledAs state)

def confirmScene (scannerUid : UserId) (scannerDeviceId confirmToken : String) : QrProg Reply := do
  let scene ← loadScene id
  settleIf .authorized scene (scene.ensureScannedWithToken scannerUid scannerDeviceId confirmToken)

def rejectScene (scannerUid : UserId) (confirmToken : String) : QrProg Reply := do
  let scene ← loadScene id
  settleIf .rejected scene (scene.ensureRejectable scannerUid confirmToken)

inductive Job
  | scan (r : ScanRequest)
  | confirm (id : SceneId) (scannerUid : UserId) (scannerDeviceId confirmToken : String)
  | reject (id : SceneId) (scannerUid : UserId) (confirmToken : String)
  deriving DecidableEq

namespace Job

def sceneId : Job → SceneId
  | .scan r => r.sceneId
  | .confirm id _ _ _ | .reject id _ _ => id

def isScan : Job → Bool
  | .scan _ => true
  | .confirm _ _ _ _ | .reject _ _ _ => false

end Job

def progOf : Job → QrProg Reply
  | .scan r => scanScene r
  | .confirm id u d confirmToken => confirmScene id u d confirmToken
  | .reject id u confirmToken => rejectScene id u confirmToken

/-- The calls may run on any number of servers. From outside, time passes in Redis. -/
def machine : Machine SceneStore Op Op.Res Moment ℕ Job QrError Reply where
  prog := progOf
  exec := exec
  env seconds s := s.wait seconds
  admits _ _ := true

abbrev QrState := State SceneStore Op Op.Res Job QrError Reply
abbrev QrEvent := Event Moment ℕ Job

/-- How far a scene has come. -/
def QrSceneState.rank : QrSceneState → ℕ
  | .created => 0
  | .scanned => 1
  | .authorized | .rejected | .expired => 2

structure Turn (old scene : QrScene) : Prop where
  sceneId : scene.sceneId = old.sceneId
  turns : old.state = .created ∧ scene.state = .scanned ∨
    old.state = .scanned ∧ (scene.state = .authorized ∨ scene.state = .rejected)

variable {scene : QrScene}

lemma Turn.rank_lt {old : QrScene} (h : Turn old scene) : old.state.rank < scene.state.rank := by
  rcases h.turns with ⟨ho, hs⟩ | ⟨ho, hs | hs⟩
  all_goals
    rw [ho, hs]
    decide

lemma turn_scannedBy (h : scene.state = .created) {r : ScanRequest}
    {now : Millis} {confirmToken : String} : Turn scene (scene.scannedBy r now confirmToken) :=
  ⟨rfl, .inl ⟨h, rfl⟩⟩

lemma turn_settledAs (h : scene.state = .scanned) {state : QrSceneState}
    (hstate : state = .authorized ∨ state = .rejected) : Turn scene (scene.settledAs state) :=
  ⟨rfl, .inr ⟨h, hstate⟩⟩

namespace QrScene

variable {scene : QrScene} {u : UserId} {d confirmToken : String}

lemma confirmToken_of_acceptsToken (h : scene.acceptsToken confirmToken = true) :
    scene.confirmToken = some confirmToken := by
  unfold acceptsToken at h
  cases ht : scene.confirmToken with
  | none =>
    rw [ht] at h
    cases h
  | some t =>
    rw [ht, Option.any_some, Bool.and_eq_true, decide_eq_true_eq] at h
    rw [h.1]

lemma of_ensureScannedWithToken (h : scene.ensureScannedWithToken u d confirmToken = .ok ()) :
    scene.state = .scanned ∧ scene.scannerUid = some u ∧ scene.scannerDeviceId = some d ∧
      scene.confirmToken = some confirmToken := by
  unfold ensureScannedWithToken at h
  split at h
  · cases h
  · next hstate =>
    split at h
    · cases h
    · next huid =>
      split at h
      · cases h
      · next hdevice =>
        split at h
        · cases h
        · next htoken =>
          exact ⟨of_not_not hstate, of_not_not huid, of_not_not hdevice,
            confirmToken_of_acceptsToken (by simpa using htoken)⟩

lemma of_ensureRejectable (h : scene.ensureRejectable u confirmToken = .ok ()) :
    scene.state = .scanned := by
  unfold ensureRejectable at h
  split at h
  · cases h
  · next hstate => exact of_not_not hstate

end QrScene

/-! ### Where a call stands -/

inductive Place
  | fresh
  /-- The scene was read under this id. -/
  | holding (id : SceneId) (scene : QrScene)
  /-- One scene was put in the place of another. -/
  | wrote (id : SceneId) (old scene : QrScene)

namespace Place

def hasWritten : Place → Bool
  | .wrote _ _ _ => true
  | .fresh | .holding _ _ => false

def got (id : SceneId) (p : Place) : Answer (Option QrScene) → Place
  | .ok (some scene) => .holding id scene
  | .ok none | .error _ => p

def put (old scene : QrScene) (p : Place) : Answer Unit → Place
  | .ok _ =>
    match p with
    | .holding id _ => .wrote id old scene
    | p => p
  | .error _ => p

def next : (op : Op) → op.Res → Place → Place
  | .get id, r, p => p.got id r
  | .setex old scene _, r, p => p.put old scene r
  | .now, _, p => p
  | .newUuid, _, p => p

end Place

def readyAt : Op → Place → Prop
  | .get _, p => p = .fresh
  | .now, p | .newUuid, p => p.hasWritten = false
  | .setex old scene seconds, p =>
    0 < seconds ∧ Turn old scene ∧ ∃ id, p = .holding id old

/-- What a call that has succeeded has written. -/
def restAt (j : Job) : Except QrError Reply → Place → Prop
  | .error _, p => p.hasWritten = false
  | .ok reply, p =>
    match j with
    | .scan r => ∃ old scene confirmToken, p = .wrote r.sceneId old scene ∧
        reply = .scanned scene confirmToken ∧ scene.state = .scanned ∧
        scene.scannerUid = some r.scannerUid ∧ scene.scannerDeviceId = some r.scannerDeviceId ∧
        scene.confirmToken = some confirmToken
    | .confirm id u d confirmToken => ∃ old scene, p = .wrote id old scene ∧
        scene.state = .authorized ∧ old.state = .scanned ∧ old.scannerUid = some u ∧
        old.scannerDeviceId = some d ∧ old.confirmToken = some confirmToken
    | .reject id _ _ => ∃ old scene, p = .wrote id old scene ∧ scene.state = .rejected

def course : Course Op Op.Res Job QrError Reply Place where
  start _ := .fresh
  next := Place.next
  ready _ := readyAt
  rest := restAt

section Programs

variable {j : Job}

/-- What is loaded is what was read, unless it was found to have expired. -/
def Loaded (id : SceneId) : Except QrError QrScene → Place → Prop
  | .ok scene, p => ∃ raw, p = .holding id raw ∧ (scene = raw ∨ scene.state = .expired)
  | .error _, p => p.hasWritten = false

variable {id : SceneId}

lemma leads_loadScene : course.Leads j (Loaded id) (loadScene id) .fresh := by
  refine ⟨rfl, fun r => ?_⟩
  match r with
  | .error e => exact rfl
  | .ok none => exact rfl
  | .ok (some scene) =>
    simp only [afterGet]
    split
    · exact ⟨scene, rfl, .inl rfl⟩
    · refine ⟨rfl, fun now => ⟨scene, rfl, ?_⟩⟩
      unfold QrScene.expireIfDue
      split
      · exact .inl rfl
      · split
        · exact .inr rfl
        · exact .inl rfl

/-- What is stored stands in the place of what was read. -/
def Stored (id : SceneId) (old scene : QrScene) : Except QrError Unit → Place → Prop
  | .ok _, p => p = .wrote id old scene
  | .error _, p => p.hasWritten = false

lemma leads_storeScene {old scene : QrScene} (h : Turn old scene) :
    course.Leads j (Stored id old scene) (storeScene old scene) (.holding id old) := by
  refine ⟨rfl, fun now => ⟨⟨scene.ttlSecsFor_pos now, h, id, rfl⟩, fun r => ?_⟩⟩
  match r with
  | .ok () => exact rfl
  | .error e => exact rfl

lemma leads_scanScene (r : ScanRequest) :
    course.Leads (.scan r) (restAt (.scan r)) (scanScene r) .fresh := by
  refine leads_loadScene.bind ?_ fun _ _ h => h
  rintro scene _ ⟨raw, rfl, hraw⟩
  unfold scanLoaded
  split
  · exact rfl
  · next hstate =>
    have hcreated : scene.state = .created := by simpa using hstate
    obtain rfl : scene = raw := hraw.resolve_right fun h => by
      rw [hcreated] at h
      cases h
    split
    · exact rfl
    · refine ⟨rfl, fun now => ⟨rfl, fun uuid => ?_⟩⟩
      refine (leads_storeScene (turn_scannedBy hcreated)).bind ?_ fun _ _ h => h
      rintro _ _ rfl
      exact ⟨scene, _, _, rfl, rfl, rfl, rfl, rfl, rfl⟩

lemma leads_settleIf {raw scene : QrScene} {state : QrSceneState}
    {check : Except QrError Unit} (hraw : scene = raw ∨ scene.state = .expired)
    (hcheck : check = .ok () → scene.state = .scanned)
    (hstate : state = .authorized ∨ state = .rejected) (hrest : check = .ok () →
      restAt j (.ok (.settled (raw.settledAs state))) (.wrote id raw (raw.settledAs state))) :
    course.Leads j (restAt j) (settleIf state scene check) (.holding id raw) := by
  cases check with
  | error e => exact rfl
  | ok _ =>
    have hscanned := hcheck rfl
    obtain rfl : scene = raw := hraw.resolve_right fun h => by
      rw [hscanned] at h
      cases h
    refine (leads_storeScene (turn_settledAs hscanned hstate)).bind ?_ fun _ _ h => h
    rintro _ _ rfl
    exact hrest rfl

lemma leads_progOf (j : Job) : course.Leads j (restAt j) (progOf j) .fresh := by
  cases j with
  | scan r => exact leads_scanScene r
  | confirm id u d confirmToken =>
    refine leads_loadScene.bind ?_ fun _ _ h => h
    rintro scene _ ⟨raw, rfl, hraw⟩
    refine leads_settleIf hraw (fun h => (QrScene.of_ensureScannedWithToken h).1) (.inl rfl) ?_
    intro h
    obtain ⟨hstate, huid, hdevice, htoken⟩ := QrScene.of_ensureScannedWithToken h
    obtain rfl : scene = raw := hraw.resolve_right fun h => by
      rw [hstate] at h
      cases h
    exact ⟨scene, _, rfl, rfl, hstate, huid, hdevice, htoken⟩
  | reject id u confirmToken =>
    refine leads_loadScene.bind ?_ fun _ _ h => h
    rintro scene _ ⟨raw, rfl, hraw⟩
    exact leads_settleIf hraw QrScene.of_ensureRejectable (.inr rfl) fun _ => ⟨raw, _, rfl, rfl⟩

end Programs

/-! ### The invariant -/

/-- A write that takes effect finds the scene as the call has read it, and is answered. -/
def careful (o : Moment) (s : SceneStore) : Op → Bool
  | .setex old scene _ =>
    !o.takesEffect || (o.fault.isNone && decide (s.get scene.sceneId = some old))
  | .get _ | .now | .newUuid => true

/-- The scene under the id is as it was created, or some call has written it. -/
def Origin (place : ℕ → Option Place) (id : SceneId) (x : QrScene) : Prop :=
  x.state = .created ∨ ∃ i old, place i = some (.wrote id old x)

/-- What was written under an id is of increasing rank, and what is there now was written last. -/
structure Kept (s : SceneStore) (place : ℕ → Option Place) : Prop where
  keyed : ∀ id x, s.get id = some x → x.sceneId = id
  held : ∀ i id x, place i = some (.holding id x) → x.sceneId = id
  behind : ∀ i id old x y, place i = some (.wrote id old x) → s.get id = some y →
    x.state.rank ≤ y.state.rank
  unique : ∀ i i' id old x old' x', place i = some (.wrote id old x) →
    place i' = some (.wrote id old' x') → x.state.rank = x'.state.rank → i = i'
  stored : ∀ id x, s.get id = some x → Origin place id x
  source : ∀ i id old x, place i = some (.wrote id old x) → Origin place id old

namespace Kept

variable {s s' : SceneStore} {place : ℕ → Option Place} {i : ℕ} {p p' : Place}

lemma fewer (hK : Kept s place) (hs : ∀ id, s'.get id = s.get id ∨ s'.get id = none) :
    Kept s' place := by
  have hold : ∀ id x, s'.get id = some x → s.get id = some x := by
    intro id x hx
    rcases hs id with h | h
    · rwa [h] at hx
    · rw [h] at hx
      cases hx
  exact ⟨fun id x hx => hK.keyed id x (hold id x hx), hK.held,
    fun i id old x y hp hy => hK.behind i id old x y hp (hold id y hy), hK.unique,
    fun id x hx => hK.stored id x (hold id x hx), hK.source⟩

lemma move (hK : Kept s place) (hi : ∀ p, place i = some p → p.hasWritten = false)
    (hp' : p'.hasWritten = false) (hheld : ∀ id x, p' = .holding id x → x.sceneId = id) :
    Kept s (Function.update place i (some p')) := by
  have hwrote : ∀ i' id old x, Function.update place i (some p') i' = some (.wrote id old x) ↔
      place i' = some (.wrote id old x) := by
    intro i' id old x
    rw [update_eq_some]
    constructor
    · rintro (⟨-, ⟨⟩⟩ | ⟨-, h⟩)
      · cases hp'
      · exact h
    · refine fun h => .inr ⟨?_, h⟩
      rintro rfl
      cases hi _ h
  have horigin : ∀ id x, Origin (Function.update place i (some p')) id x ↔ Origin place id x := by
    simp only [Origin, hwrote, implies_true]
  constructor
  · exact hK.keyed
  · intro i' id x hx
    rcases update_eq_some.mp hx with ⟨-, hx⟩ | ⟨-, hx⟩
    · exact hheld id x (Option.some.inj hx)
    · exact hK.held i' id x hx
  · simp only [hwrote]
    exact hK.behind
  · simp only [hwrote]
    exact hK.unique
  · simp only [horigin]
    exact hK.stored
  · simp only [hwrote, horigin]
    exact hK.source

lemma write (hK : Kept s place) {id : SceneId} {old x : QrScene} {seconds : ℕ}
    (hi : place i = some (.holding id old)) (hturn : Turn old x) (hseconds : 0 < seconds)
    (hsame : s.get x.sceneId = some old) : Kept (s.effect (.setex x.sceneId seconds x))
      (Function.update place i (some (.wrote id old x))) := by
  have hid : x.sceneId = id := hturn.sceneId.trans (hK.held i id old hi)
  rw [hid] at hsame
  have hget : ∀ id', (s.effect (.setex x.sceneId seconds x)).get id' =
      if id' = id then some x else s.get id' := by
    intro id'
    rw [Redis.Store.get_setex _ _ _ hseconds, hid]
    by_cases h : id' = id
    · rw [if_pos h, h, Function.update_self]
    · rw [if_neg h, Function.update_of_ne h]
  -- who has written by now: the call itself, and those that have before
  have hwrote : ∀ i' id' old' x',
      Function.update place i (some (.wrote id old x)) i' = some (.wrote id' old' x') →
        (i' = i ∧ id' = id ∧ old' = old ∧ x' = x) ∨ place i' = some (.wrote id' old' x') := by
    intro i' id' old' x' h
    rcases update_eq_some.mp h with ⟨hii, ⟨⟩⟩ | h
    · exact .inl ⟨hii, rfl, rfl, rfl⟩
    · exact .inr h.2
  have horigin : ∀ id' y, Origin place id' y →
      Origin (Function.update place i (some (.wrote id old x))) id' y := by
    rintro id' y (h | ⟨i', old', h⟩)
    · exact .inl h
    · refine .inr ⟨i', old', update_eq_some.mpr (.inr ⟨?_, h⟩)⟩
      rintro rfl
      cases hi.symm.trans h
  have hlt : ∀ i' old' x', place i' = some (.wrote id old' x') → x'.state.rank < x.state.rank :=
    fun i' old' x' h => (hK.behind i' id old' x' old h hsame).trans_lt hturn.rank_lt
  constructor
  · intro id' y hy
    rw [hget] at hy
    split at hy
    · next h =>
      cases hy
      rw [h, hid]
    · exact hK.keyed id' y hy
  · intro i' id' y hy
    rcases update_eq_some.mp hy with ⟨-, ⟨⟩⟩ | ⟨-, hy⟩
    exact hK.held i' id' y hy
  · intro i' id' old' x' y h hy
    rw [hget] at hy
    rcases hwrote i' id' old' x' h with ⟨-, rfl, rfl, rfl⟩ | h'
    · rw [if_pos rfl] at hy
      cases hy
      exact le_rfl
    · split at hy
      · next hid' =>
        cases hy
        subst hid'
        exact (hlt i' old' x' h').le
      · exact hK.behind i' id' old' x' y h' hy
  · intro i1 i2 id' old1 x1 old2 x2 h1 h2 hrank
    rcases hwrote i1 id' old1 x1 h1 with ⟨rfl, rfl, rfl, rfl⟩ | h1'
    · rcases hwrote i2 id' old2 x2 h2 with ⟨rfl, -⟩ | h2'
      · rfl
      · have hless := hlt i2 old2 x2 h2'
        omega
    · rcases hwrote i2 id' old2 x2 h2 with ⟨rfl, rfl, rfl, rfl⟩ | h2'
      · have hless := hlt i1 old1 x1 h1'
        omega
      · exact hK.unique i1 i2 id' old1 x1 old2 x2 h1' h2' hrank
  · intro id' y hy
    rw [hget] at hy
    split at hy
    · next h =>
      cases hy
      exact .inr ⟨i, old, by rw [h, Function.update_self]⟩
    · exact horigin id' y (hK.stored id' y hy)
  · intro i' id' old' x' h
    rcases hwrote i' id' old' x' h with ⟨-, rfl, rfl, -⟩ | h
    · exact horigin id' old' (hK.stored id' old' hsame)
    · exact horigin id' old' (hK.source i' id' old' x' h)

lemma call (hK : Kept s place) (hi : place i = some p) {op : Op} {o : Moment}
    (hready : readyAt op p) (hcareful : careful o s op = true) :
    Kept (exec op o s).2 (Function.update place i (some (Place.next op (exec op o s).1 p))) := by
  have hstay : p.hasWritten = false → Kept s (Function.update place i (some p)) := fun _ => by
    rwa [← hi, Function.update_eq_self]
  have hpi : ∀ q, place i = some q → p.hasWritten = false → q.hasWritten = false := by
    intro q hq hp
    rw [hi, Option.some.injEq] at hq
    exact hq ▸ hp
  cases op with
  | now => exact hstay hready
  | newUuid => exact hstay hready
  | get id =>
    obtain rfl := hready
    change Kept s (Function.update place i (some (Place.fresh.got id (o.answer (s.get id)))))
    unfold Moment.answer
    cases o.fault with
    | some e => exact hstay rfl
    | none =>
      cases hget : s.get id with
      | none => exact hstay rfl
      | some x =>
        refine hK.move (fun q hq => hpi q hq rfl) rfl ?_
        rintro _ _ ⟨⟩
        exact hK.keyed id x hget
  | setex old x seconds =>
    obtain ⟨hseconds, hturn, id, rfl⟩ := hready
    change Kept (if o.takesEffect then s.effect (.setex x.sceneId seconds x) else s)
      (Function.update place i (some ((Place.holding id old).put old x (o.answer ()))))
    cases heffect : o.takesEffect with
    | false =>
      obtain ⟨e, hfault⟩ : ∃ e, o.fault = some e := by
        cases hf : o.fault with
        | none => simp [Moment.takesEffect, hf] at heffect
        | some e => exact ⟨e, rfl⟩
      simp only [Moment.answer, hfault]
      exact hstay rfl
    | true =>
      simp only [careful, heffect, Bool.not_true, Bool.false_or, Bool.and_eq_true,
        decide_eq_true_eq, Option.isNone_iff_eq_none] at hcareful
      obtain ⟨hfault, hsame⟩ := hcareful
      simp only [Moment.answer, hfault, if_true]
      exact hK.write hi hturn hseconds hsame

end Kept

/-- No scene has been scanned yet. -/
def AllCreated (s : SceneStore) : Prop :=
  ∀ id x, s.get id = some x → x.sceneId = id ∧ x.state = .created

lemma kept_start {s : SceneStore} (h : AllCreated s) : Kept s fun _ => none where
  keyed id x hx := (h id x hx).1
  held _ _ _ hp := nomatch hp
  behind _ _ _ _ _ hp := nomatch hp
  unique _ _ _ _ _ _ _ hp := nomatch hp
  stored id x hx := .inl (h id x hx).2
  source _ _ _ _ hp := nomatch hp

/-! ### Runs -/

lemma guards : machine.Guards course (fun _ _ op o s => careful o s op = true)
    (fun _ _ _ _ => false) fun _ => Kept where
  prog := leads_progOf
  start _ i _ s place hK hi := by
    refine hK.move (fun p hp => ?_) rfl (by rintro _ _ ⟨⟩)
    rw [hi] at hp
    cases hp
  call _ _ _ _ _ _ _ _ hK hi hready hcareful := hK.call hi hready hcareful
  env _ seconds s _ hK := hK.fewer s.get_wait

/-- The calls from the start on. -/
def runFrom (s : SceneStore) (evs : List QrEvent) : QrState := machine.run (.init s) evs

/-- Every write finds the scene as its call has read it. -/
def CarefulRun (s : SceneStore) (evs : List QrEvent) : Prop :=
  GivenRun machine (fun _ _ op o s => careful o s op = true) (.init s) evs

instance CarefulRun.decidable (s : SceneStore) (evs : List QrEvent) :
    Decidable (CarefulRun s evs) :=
  GivenRun.decidable ..

structure SingleUse (t t' : QrState) : Prop where
  /-- At most one scan of a scene succeeds. -/
  scan : ∀ i i' j j' reply reply', (t.tasks i).decided = some (j, .ok reply) →
    (t.tasks i').decided = some (j', .ok reply') → j.isScan = true → j'.isScan = true →
    j.sceneId = j'.sceneId → i = i'
  /-- At most one confirmation or rejection of a scene succeeds. -/
  settle : ∀ i i' j j' reply reply', (t.tasks i).decided = some (j, .ok reply) →
    (t.tasks i').decided = some (j', .ok reply') → j.isScan = false → j'.isScan = false →
    j.sceneId = j'.sceneId → i = i'
  /-- A scene that is authorized or rejected stays so. -/
  final : ∀ id x x', t.shared.get id = some x → x.state = .authorized ∨ x.state = .rejected →
    t'.shared.get id = some x' → x'.state = x.state
  /-- Who confirms has scanned the scene, with that device, and got that token. -/
  confirm : ∀ i id u d confirmToken reply,
    (t.tasks i).decided = some (.confirm id u d confirmToken, .ok reply) →
    ∃ i' r scene, (t.tasks i').decided = some (.scan r, .ok (.scanned scene confirmToken)) ∧
      r.sceneId = id ∧ r.scannerUid = u ∧ r.scannerDeviceId = d

section Results

variable {t : QrState} {place : ℕ → Option Place} (hK : Kept t.shared place)
  (hstands : ∀ i, course.Stands (t.tasks i) (place i)) {i : ℕ} {reply : Reply}

include hstands in
/-- What a call that has succeeded has written, and how far that has brought the scene. -/
lemma wrote_of_decided {j : Job} (h : (t.tasks i).decided = some (j, .ok reply)) :
    ∃ old x, place i = some (.wrote j.sceneId old x) ∧
      x.state.rank = if j.isScan then 1 else 2 := by
  obtain ⟨p, hp, hrest⟩ := (hstands i).rest h
  cases j with
  | scan r =>
    obtain ⟨old, x, confirmToken, rfl, -, hstate, -⟩ := hrest
    exact ⟨old, x, hp, by rw [hstate]; rfl⟩
  | confirm id u d confirmToken =>
    obtain ⟨old, x, rfl, hstate, -⟩ := hrest
    exact ⟨old, x, hp, by rw [hstate]; rfl⟩
  | reject id u confirmToken =>
    obtain ⟨old, x, rfl, hstate⟩ := hrest
    exact ⟨old, x, hp, by rw [hstate]; rfl⟩

include hK hstands in
lemma eq_of_decided {i' : ℕ} {j j' : Job} {reply' : Reply}
    (h : (t.tasks i).decided = some (j, .ok reply))
    (h' : (t.tasks i').decided = some (j', .ok reply')) (hkind : j.isScan = j'.isScan)
    (hid : j.sceneId = j'.sceneId) : i = i' := by
  obtain ⟨old, x, hp, hrank⟩ := wrote_of_decided hstands h
  obtain ⟨old', x', hp', hrank'⟩ := wrote_of_decided hstands h'
  rw [← hid] at hp'
  exact hK.unique i i' _ old x old' x' hp hp' (by rw [hrank, hrank', hkind])

lemma not_ready_wrote {id : SceneId} {old x : QrScene} (op : Op) :
    ¬ readyAt op (.wrote id old x) := by
  intro hready
  cases op with
  | get _ | now | newUuid => cases hready
  | setex _ _ _ =>
    obtain ⟨-, -, _, h⟩ := hready
    cases h

include hstands in
lemma scan_of_wrote {id : SceneId} {old x : QrScene}
    (hp : place i = some (.wrote id old x)) (hstate : x.state = .scanned) :
    ∃ r confirmToken, (t.tasks i).decided = some (.scan r, .ok (.scanned x confirmToken)) ∧
      r.sceneId = id ∧ x.scannerUid = some r.scannerUid ∧
      x.scannerDeviceId = some r.scannerDeviceId ∧ x.confirmToken = some confirmToken := by
  have hi := hstands i
  rw [hp] at hi
  obtain ⟨j, r, hdecided, hrest⟩ := hi.decided fun _ => not_ready_wrote
  cases r with
  | error e => cases hrest
  | ok reply =>
    cases j with
    | scan r =>
      obtain ⟨_, _, confirmToken, hwrote, rfl, -, huid, hdevice, htoken⟩ := hrest
      cases hwrote
      exact ⟨r, confirmToken, hdecided, rfl, huid, hdevice, htoken⟩
    | confirm id' u d confirmToken =>
      obtain ⟨_, _, hwrote, hauthorized, -⟩ := hrest
      cases hwrote
      rw [hauthorized] at hstate
      cases hstate
    | reject id' u confirmToken =>
      obtain ⟨_, _, hwrote, hrejected⟩ := hrest
      cases hwrote
      rw [hrejected] at hstate
      cases hstate

include hK hstands in
lemma scan_of_confirm {id : SceneId} {u : UserId} {d confirmToken : String}
    (h : (t.tasks i).decided = some (.confirm id u d confirmToken, .ok reply)) :
    ∃ i' r scene, (t.tasks i').decided = some (.scan r, .ok (.scanned scene confirmToken)) ∧
      r.sceneId = id ∧ r.scannerUid = u ∧ r.scannerDeviceId = d := by
  obtain ⟨p, hp, hrest⟩ := (hstands i).rest h
  obtain ⟨old, x, rfl, -, hscanned, huid, hdevice, htoken⟩ := hrest
  obtain ⟨i', old', hp'⟩ := (hK.source i id old x hp).resolve_left (by rw [hscanned]; nofun)
  obtain ⟨r, confirmToken', hdecided, hid, huid', hdevice', htoken'⟩ :=
    scan_of_wrote hstands hp' hscanned
  rw [huid, Option.some.injEq] at huid'
  rw [hdevice, Option.some.injEq] at hdevice'
  rw [htoken, Option.some.injEq] at htoken'
  subst htoken'
  exact ⟨i', r, old, hdecided, hid, huid'.symm, hdevice'.symm⟩

lemma Kept.eq_of_wrote {s : SceneStore} (hK : Kept s place) {id : SceneId} {old x y : QrScene}
    (hp : place i = some (.wrote id old x)) (hx : x.state.rank = 2) (hy : s.get id = some y) :
    y = x := by
  have hle := hK.behind i id old x y hp hy
  rw [hx] at hle
  have hrank : y.state.rank = 2 := by
    cases hstate : y.state with
    | created | scanned => simp [hstate, QrSceneState.rank] at hle
    | authorized | rejected | expired => rfl
  rcases hK.stored id y hy with h | ⟨i', old', hp'⟩
  · rw [h] at hrank
    cases hrank
  · obtain rfl := hK.unique i i' id old x old' y hp hp' (hx.trans hrank.symm)
    cases hp.symm.trans hp'
    rfl

end Results

/-- **A scene is used once**, whatever calls run at the same time, if every write finds the scene as
its call has read it. -/
theorem scene_used_once (s : SceneStore) (hs : AllCreated s) (evs evs' : List QrEvent)
    (hcareful : CarefulRun s (evs ++ evs')) :
    SingleUse (runFrom s evs) (runFrom s (evs ++ evs')) := by
  obtain ⟨hevs, hevs'⟩ := (givenRun_append machine).mp hcareful
  obtain ⟨place, hK, hstands⟩ := guards.run (n := 0) (s := .init s) (kept_start hs) (fun _ => rfl)
    evs hevs
  constructor
  · intro i i' j j' reply reply' h h' hj hj' hid
    exact eq_of_decided hK hstands h h' (hj.trans hj'.symm) hid
  · intro i i' j j' reply reply' h h' hj hj' hid
    exact eq_of_decided hK hstands h h' (hj.trans hj'.symm) hid
  · intro id x x' hx hfinal hx'
    obtain ⟨i, old, hp⟩ := (hK.stored id x hx).resolve_left
      (by rcases hfinal with h | h <;> simp [h])
    -- the call that has written it stays where it is
    obtain ⟨place', ⟨hK', hp'⟩, -⟩ :=
      (guards.stays fun _ => not_ready_wrote).run (n := 0) ⟨hK, hp⟩ hstands evs' hevs'
    rw [← Machine.run_append] at hK'
    have hrank : x.state.rank = 2 := by rcases hfinal with h | h <;> rw [h] <;> rfl
    rw [hK'.eq_of_wrote hp' hrank hx']
  · intro i id u d confirmToken reply h
    exact scan_of_confirm hK hstands h

def sampleScene : QrScene where
  sceneId := "scene"
  qrToken := "qr_1"
  purpose := "login"
  state := .created
  webDeviceId := "web"
  webDeviceInfo := ⟨none, none, none⟩
  createdAt := 0
  expiresAt := 90000
  scannedAt := none
  scannerUid := none
  scannerDeviceId := none
  scannerAvatar := none
  scannerDisplayName := none
  confirmToken := none
  confirmTokenConsumed := false

def sampleStore : SceneStore := Redis.Store.empty.effect (.setex "scene" 90 sampleScene)

lemma sampleStore_created : AllCreated sampleStore := by
  intro id x hx
  rw [sampleStore, Redis.Store.get_setex _ _ _ (by decide)] at hx
  by_cases hid : id = "scene"
  · subst hid
    cases hx
    exact ⟨rfl, rfl⟩
  · rw [Function.update_of_ne hid] at hx
    cases hx

/-- Task `i` takes that many steps, and nothing fails. -/
def steps (i n : ℕ) (uuid : String) : List QrEvent :=
  List.replicate n (.step i ⟨1000, uuid, none, false⟩)

def sampleRequest (u : UserId) : ScanRequest := ⟨"scene", u, "ios", "qr_1", none, none⟩

/-- A scan, and then the confirmation by the one who has scanned. -/
def sampleCalls : List QrEvent :=
  .start 0 (.scan (sampleRequest 1)) :: steps 0 7 "a" ++
    .start 1 (.confirm "scene" 1 "ios" "ct_a") :: steps 1 5 ""

theorem scene_used_once_sample :
    SingleUse (runFrom sampleStore sampleCalls) (runFrom sampleStore (sampleCalls ++ [])) ∧
      ((runFrom sampleStore sampleCalls).shared.get "scene").map (·.state) = some .authorized :=
  ⟨scene_used_once sampleStore sampleStore_created sampleCalls [] (by decide +kernel),
    by decide +kernel⟩

/-- Two users scan at the same time: both have read the scene before one of them has written it. -/
def overlappingScans : List QrEvent :=
  .start 0 (.scan (sampleRequest 1)) :: .start 1 (.scan (sampleRequest 2)) :: steps 0 2 "a" ++ steps
    1 2 "b" ++
    steps 0 5 "a" ++ steps 1 5 "b"

theorem overlapping_scans_succeed :
    ((runFrom sampleStore overlappingScans).tasks 0).decided = some (.scan (sampleRequest 1),
        .ok (.scanned (sampleScene.scannedBy (sampleRequest 1) 1000 "ct_a") "ct_a")) ∧
      ((runFrom sampleStore overlappingScans).tasks 1).decided = some (.scan (sampleRequest 2),
        .ok (.scanned (sampleScene.scannedBy (sampleRequest 2) 1000 "ct_b") "ct_b")) ∧
      ¬ SingleUse (runFrom sampleStore overlappingScans)
        (runFrom sampleStore (overlappingScans ++ [])) := by
  have h0 : ((runFrom sampleStore overlappingScans).tasks 0).decided =
      some (.scan (sampleRequest 1),
        .ok (.scanned (sampleScene.scannedBy (sampleRequest 1) 1000 "ct_a") "ct_a")) := by
    decide +kernel
  have h1 : ((runFrom sampleStore overlappingScans).tasks 1).decided =
      some (.scan (sampleRequest 2),
        .ok (.scanned (sampleScene.scannedBy (sampleRequest 2) 1000 "ct_b") "ct_b")) := by
    decide +kernel
  refine ⟨h0, h1, fun hsingle => ?_⟩
  have heq := hsingle.scan 0 1 _ _ _ _ h0 h1 rfl rfl rfl
  cases heq

end PrivChat.QrLogin
