import Mathlib

/-!
QR keys, and what a refresh revokes.

The service remembers one key for each target, whatever its type: the one issued last. A refresh
revokes that key and no other.
-/

namespace PrivChat.QrCodes

inductive QRType
  | user | group | auth | feature
  deriving DecidableEq

/-- Keys are distinct: each stands for the number of those issued before it. -/
abbrev QRKey := ℕ

inductive ServerError
  | notFound (text : String) | badRequest (text : String) | unauthorized (text : String)

/-- Of the metadata only the token, if it has one. -/
structure QRKeyRecord where
  qrType : QRType
  targetId : String
  expireAt : Option ℤ
  maxUsage : Option ℤ
  usedCount : ℕ
  revoked : Bool
  token : Option String

structure QRKeyOptions where
  expireSeconds : Option ℤ := none
  maxUsage : Option ℤ := none
  revokeOld : Bool := false
  oneTime : Bool := false
  token : Option String := none

structure QRScanLog where
  qrKey : QRKey
  scannerId : ℕ
  error : Option ServerError

namespace QRKeyRecord

variable (r : QRKeyRecord) (now : ℤ)

def isExpired : Bool := r.expireAt.any fun t => decide (t < now)

def isUsageExceeded : Bool := r.maxUsage.any fun m => decide (m ≤ (r.usedCount : ℤ))

def isValid : Bool := !r.revoked && !r.isExpired now && !r.isUsageExceeded

def refusal (token : Option String) : Option ServerError :=
  if r.revoked then some (.badRequest "QR Key 已被撤销")
  else if r.isExpired now then some (.badRequest "QR Key 已过期")
  else if r.isUsageExceeded then some (.badRequest "QR Key 使用次数已达上限")
  else if r.qrType = .group ∧ r.token.any fun t => decide (token ≠ some t) then
    some (.unauthorized "Token 验证失败")
  else none

def isOf (type : QRType) (target : String) : Prop := r.qrType = type ∧ r.targetId = target

def revokedIf (b : Bool) : QRKeyRecord := { r with revoked := r.revoked || b }

variable {r now}

lemma revokedIf_eq_self {b : Bool} (h : b = true → r.revoked = true) : r.revokedIf b = r := by
  have hr : (r.revoked || b) = r.revoked := by grind
  rw [revokedIf, hr]

@[simp] lemma revokedIf_false : r.revokedIf false = r := revokedIf_eq_self nofun

lemma isValid_revokedIf {b : Bool} : (r.revokedIf b).isValid now = (!b && r.isValid now) := by
  cases b <;> simp [isValid, revokedIf]

lemma isValid_of_refusal {token : Option String} (h : r.refusal now token = none) :
    r.isValid now = true := by
  grind [refusal, isValid]

lemma isValid_wait {d : ℕ} (h : r.isValid now = false) : r.isValid (now + d) = false := by
  simp only [isValid, isExpired] at h ⊢
  cases he : r.expireAt <;> grind

end QRKeyRecord

/-- The time is in seconds. -/
structure QRCodeService where
  storage : List QRKeyRecord
  targetIndex : String → Option QRKey
  scanLogs : List QRScanLog
  now : ℤ

namespace QRCodeService

variable (s : QRCodeService) (type : QRType) (target : String) (key : QRKey)

def setRevoked : QRCodeService :=
  { s with storage := s.storage.modify key fun r => { r with revoked := true } }

def setIndex (key : Option QRKey) : QRCodeService :=
  { s with targetIndex := fun t => if t = target then key else s.targetIndex t }

def revoke : QRCodeService × Except ServerError Unit :=
  if key < s.storage.length then (s.setRevoked key, .ok ())
  else (s, .error (.notFound "QR Key 不存在"))

def revokeByTarget : QRCodeService × Except ServerError QRKey :=
  match s.targetIndex target with
  | none => (s, .error (.notFound "未找到该目标的 QR Key"))
  | some key =>
    if key < s.storage.length then ((s.setRevoked key).setIndex target none, .ok key)
    else (s, .error (.notFound "未找到该目标的 QR Key"))

def insert (record : QRKeyRecord) : QRCodeService :=
  { s with storage := s.storage ++ [record] }.setIndex record.targetId (some s.storage.length)

def generate (options : QRKeyOptions) : QRCodeService × QRKey :=
  let s := if options.revokeOld then (s.revokeByTarget target).1 else s
  (s.insert {
    qrType := type
    targetId := target
    expireAt := options.expireSeconds.map (s.now + ·)
    maxUsage := if options.oneTime then some 1 else options.maxUsage
    usedCount := 0
    revoked := false
    token := options.token }, s.storage.length)

def refresh : QRCodeService × Option QRKey × QRKey :=
  let (s, old) := s.revokeByTarget target
  let (s, new) := s.generate type target {}
  (s, old.toOption, new)

def resolve (scannerId : ℕ) (token : Option String) :
    QRCodeService × Except ServerError QRKeyRecord :=
  match s.storage[key]? with
  | none => (s, .error (.notFound "QR Key 不存在或已失效"))
  | some r =>
    match r.refusal s.now token with
    | some e => ({ s with scanLogs := s.scanLogs ++ [⟨key, scannerId, some e⟩] }, .error e)
    | none =>
      let r := { r with usedCount := r.usedCount + 1 }
      ({ s with
        storage := s.storage.set key r
        scanLogs := s.scanLogs ++ [⟨key, scannerId, none⟩] }, .ok r)

inductive Call
  | generate (type : QRType) (target : String) (options : QRKeyOptions)
  | refresh (type : QRType) (target : String)
  | revoke (key : QRKey)
  | resolve (key : QRKey) (scannerId : ℕ) (token : Option String)
  | wait (seconds : ℕ)

def step : Call → QRCodeService
  | .generate type target options => (s.generate type target options).1
  | .refresh type target => (s.refresh type target).1
  | .revoke key => (s.revoke key).1
  | .resolve key scannerId token => (s.resolve key scannerId token).1
  | .wait seconds => { s with now := s.now + seconds }

def scans : ℕ := s.scanLogs.countP fun l => decide (l.qrKey = key) && l.error.isNone

/-- The pair whose older keys the call is to revoke. -/
def Call.renews : Call → Option (QRType × String)
  | .refresh type target => some (type, target)
  | .generate type target options => if options.revokeOld then some (type, target) else none
  | _ => none

structure View where
  record : Option QRKeyRecord
  scans : ℕ
  now : ℤ

def View.revokedIf (v : View) (b : Bool) : View :=
  { v with record := v.record.map (·.revokedIf b) }

@[simp] lemma View.revokedIf_false {v : View} : v.revokedIf false = v := by
  simp [View.revokedIf]

def view : View := ⟨s.storage[key]?, s.scans key, s.now⟩

/-- What a part of a call may do to a key. -/
inductive Move (v : View) : View → Prop
  | revoke (b : Bool) : Move v (v.revokedIf b)
  | issue {r} (hv : v.record = none) (hr : r.usedCount = 0) : Move v { v with record := some r }
  | use {r} (hv : v.record = some r) (hr : r.isValid v.now = true) :
    Move v ⟨some { r with usedCount := r.usedCount + 1 }, v.scans + 1, v.now⟩
  | wait (d : ℕ) : Move v { v with now := v.now + d }

abbrev Moves := Relation.ReflTransGen Move

/-- Each use is counted, and there are no more than the record allows. -/
structure Counted (v : View) : Prop where
  unused : v.record = none → v.scans = 0
  used : ∀ r, v.record = some r →
    v.scans = r.usedCount ∧ ∀ m, r.maxUsage = some m → v.scans ≤ m.toNat

/-- The key is not resolved, now or later. -/
def Dead (v : View) : Prop := ∃ r, v.record = some r ∧ r.isValid v.now = false

variable {s type target key} {v v' : View} {r : QRKeyRecord}

lemma Counted.moves (h : Moves v v') (hv : Counted v) : Counted v' := by
  induction h with
  | refl => exact hv
  | tail _ hm ih =>
    cases hm with
    | wait => exact ⟨ih.unused, ih.used⟩
    | revoke b =>
      refine ⟨fun h => ih.unused (Option.map_eq_none_iff.mp h), fun r hr => ?_⟩
      obtain ⟨r0, hr0, rfl⟩ := Option.map_eq_some_iff.mp hr
      exact ih.used r0 hr0
    | issue hv hr =>
      refine ⟨nofun, fun r h => ?_⟩
      cases h
      exact ⟨(ih.unused hv).trans hr.symm, fun m _ => ih.unused hv ▸ Nat.zero_le _⟩
    | use hv hr =>
      refine ⟨nofun, fun r h => ?_⟩
      cases h
      obtain ⟨hn, -⟩ := ih.used _ hv
      refine ⟨congrArg (· + 1) hn, fun m hm => ?_⟩
      simp only at hm ⊢
      simp [QRKeyRecord.isValid, QRKeyRecord.isUsageExceeded, hm] at hr
      omega

lemma Dead.moves (h : Moves v v') (hv : Dead v) : Dead v' := by
  induction h with
  | refl => exact hv
  | tail _ hm ih =>
    obtain ⟨r, hr, hv⟩ := ih
    cases hm with
    | wait => exact ⟨r, hr, QRKeyRecord.isValid_wait hv⟩
    | revoke b =>
      refine ⟨_, congrArg (Option.map _) hr, ?_⟩
      rw [QRKeyRecord.isValid_revokedIf, View.revokedIf, hv, Bool.and_false]
    | issue hn => exact absurd (hn.symm.trans hr) nofun
    | use hr' hu =>
      cases hr'.symm.trans hr
      exact absurd (hv.symm.trans hu) nofun

variable {s' : QRCodeService} {c : Call} {calls : List Call} {scannerId : ℕ}
  {token : Option String}

lemma resolve_eq (hr : s.storage[key]? = some r) : (s.resolve key scannerId token).2 =
    (r.refusal s.now token).elim (.ok { r with usedCount := r.usedCount + 1 }) .error := by
  simp only [resolve, hr]
  cases r.refusal s.now token <;> rfl

lemma Dead.resolve (h : Dead (s.view key)) : (s.resolve key scannerId token).2.isOk = false := by
  obtain ⟨r, hr, hv⟩ := h
  rw [resolve_eq hr]
  cases hf : r.refusal s.now token with
  | none => exact absurd (hv.symm.trans (QRKeyRecord.isValid_of_refusal hf)) nofun
  | some e => rfl

/-! ### Two histories -/

end QRCodeService

open QRCodeService

end PrivChat.QrCodes
