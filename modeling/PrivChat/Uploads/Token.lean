import PrivChat.Uploads.Completion
import PrivChat.Checks.Basic

/-!
The signed upload tokens.

A token says who may upload what, and for how long. What is signed into it is checked by the same
code when it is issued and when it is presented, and a token that is presented must not be older
than a day, whatever times it carries. Of the library that encodes tokens the code only needs the
fields of `Jwt`.
-/

namespace PrivChat.Uploads

open Checks

namespace FileType

def asStr : FileType → String
  | .image => "image"
  | .video => "video"
  | .voice => "voice"
  | .file => "file"
  | .other => "other"

def fromStr : String → Option FileType
  | "image" => some .image
  | "video" => some .video
  | "voice" => some .voice
  | "file" => some .file
  | "other" => some .other
  | _ => none

end FileType

inductive UploadTokenPurpose
  | upload | claimExisting

structure UploadPlan where
  baseUnit : ℕ
  initialRequestSize : ℕ
  maxRequestSize : ℕ
  sessionThreshold : ℕ
  maxParallelParts : ℕ
  deriving DecidableEq

structure UploadTokenClaims where
  v : ℕ
  uploadId : String
  aud : String
  uid : ℕ
  prp : String
  ft : String
  bt : String
  mx : ℤ
  filename : Option String
  plaintextSha256 : Option String
  plaintextSize : Option ℤ
  chunkPlainSize : Option ℕ
  formatVersion : Option ℕ
  encryptionKeyId : Option ℕ
  sealedBlobSize : Option ℤ
  mimeType : Option String
  nodeId : Option String
  uploadBaseUrl : Option String
  plan : Option UploadPlan
  iat : ℕ
  exp : ℕ
  deriving DecidableEq

def tokenTyp : String := "upload"
def tokenAud : String := "file-upload"
def claimsVersion : ℕ := 1
def maxTtlSecs : ℕ := 86400
def maxFilenameBytes : ℕ := 255

def UploadTokenPurpose.code : UploadTokenPurpose → String
  | .upload => "u"
  | .claimExisting => "c"

def UploadTokenClaims.purpose (claims : UploadTokenClaims) : Option UploadTokenPurpose :=
  match claims.prp with
  | "u" => some .upload
  | "c" => some .claimExisting
  | _ => none

inductive IssueError
  | unknownKid | ttlTooLong | nonPositiveSize | filenameTooLong | badUploadPlan | unsafeUploadId
  | sizeAboveMax | badDigest | badClaims | encodeFailed
  deriving DecidableEq

def isAsciiHexdigit (c : Char) : Bool :=
  c.isDigit || ('a' ≤ c && c ≤ 'f') || ('A' ≤ c && c ≤ 'F')

def isSafeUploadId (s : String) : Bool :=
  s ≠ "" && s.utf8ByteSize ≤ 64 && s.toList.all isAsciiHexdigit

def isSha256Hex (s : String) : Bool := s.utf8ByteSize = 64 && s.toList.all isAsciiHexdigit

/-- The sizes are multiples of the base unit, and what is set is within its limits. -/
def UploadPlan.good (plan : UploadPlan) : Bool :=
  plan.baseUnit ≠ 0 && plan.initialRequestSize ≠ 0 && plan.maxRequestSize ≠ 0 &&
    plan.maxParallelParts ≠ 0 && plan.initialRequestSize % plan.baseUnit = 0 &&
    plan.maxRequestSize % plan.baseUnit = 0 && plan.initialRequestSize ≤ plan.maxRequestSize &&
    plan.maxParallelParts ≤ 8

def validateClaims (claims : UploadTokenClaims) : Except IssueError Unit := do
  check (claims.v = claimsVersion) .badClaims
  check (isSafeUploadId claims.uploadId) .unsafeUploadId
  check claims.purpose.isSome .badClaims
  check (FileType.fromStr claims.ft).isSome .badClaims
  check (0 < claims.mx) .badClaims
  check (claims.sealedBlobSize.all (0 < ·)) .nonPositiveSize
  check (claims.sealedBlobSize.all (· ≤ claims.mx)) .sizeAboveMax
  check (claims.plaintextSha256.all isSha256Hex) .badDigest
  check (claims.filename.all (·.utf8ByteSize ≤ maxFilenameBytes)) .filenameTooLong
  check (claims.plan.all UploadPlan.good) .badUploadPlan

inductive Algorithm
  | hs256
  | other (name : String)
  deriving DecidableEq

structure Header where
  alg : Algorithm
  kid : Option String
  typ : Option String
  deriving DecidableEq

inductive UploadTokenError
  | malformedHeader | wrongTyp | unknownKid | invalidSignature | expired | wrongAudience
  | reversedTime | issuedInFuture | ttlTooLong | unknownVersion | other
  | badClaims (e : IssueError)

/-- The library: what a token has in it, and with which secrets its signature is right. A token
that was encoded has in it what was encoded. -/
structure Jwt (τ : Type) where
  header : τ → Option Header
  signedBy : τ → String → Bool
  payload : τ → Option UploadTokenClaims
  encode : Header → UploadTokenClaims → String → Option τ
  of_encode : ∀ {h c secret t}, encode h c secret = some t →
    header t = some h ∧ signedBy t secret = true ∧ payload t = some c

/-- What the library checks: the signature, the expiry and the audience. -/
def Jwt.decode {τ : Type} (jwt : Jwt τ) (secret : String) (leeway now : ℕ) (token : τ) :
    Except UploadTokenError UploadTokenClaims := do
  check (jwt.signedBy token secret) .invalidSignature
  let claims ← found .other (jwt.payload token)
  check (now ≤ claims.exp + leeway) .expired
  check (claims.aud = tokenAud) .wrongAudience
  return claims

structure UploadTokenConfig where
  keys : String → Option String
  defaultKid : String
  leewaySecs : ℕ
  ttlSecs : ℕ

def UploadTokenConfig.resolveSecret (cfg : UploadTokenConfig) (kid : Option String) :
    Option String :=
  cfg.keys (kid.getD cfg.defaultKid)

def saturatingAdd (a b : ℕ) : ℕ := min (a + b) (2 ^ 64 - 1)

section SignVerify

variable {τ : Type} (jwt : Jwt τ) (cfg : UploadTokenConfig) (now : ℕ)

/-- What is signed: the claims of the caller, with version, audience and times. -/
def UploadTokenClaims.stamped (claims : UploadTokenClaims) : UploadTokenClaims :=
  { claims with
    v := claimsVersion
    aud := tokenAud
    iat := now
    exp := saturatingAdd now cfg.ttlSecs }

def sign (claims : UploadTokenClaims) : Except IssueError τ := do
  check (cfg.ttlSecs ≤ maxTtlSecs) .ttlTooLong
  let claims := claims.stamped cfg now
  validateClaims claims
  let secret ← found .unknownKid (cfg.resolveSecret (some cfg.defaultKid))
  found .encodeFailed (jwt.encode ⟨.hs256, some cfg.defaultKid, some tokenTyp⟩ claims secret)

def verify (token : τ) : Except UploadTokenError UploadTokenClaims := do
  let header ← found .malformedHeader (jwt.header token)
  check (header.alg = .hs256) .malformedHeader
  check (header.typ = some tokenTyp) .wrongTyp
  let secret ← found .unknownKid (cfg.resolveSecret header.kid)
  let claims ← jwt.decode secret cfg.leewaySecs now token
  check (claims.v = claimsVersion) .unknownVersion
  check (claims.iat < claims.exp) .reversedTime
  check (claims.iat ≤ saturatingAdd now cfg.leewaySecs) .issuedInFuture
  check (claims.exp - claims.iat ≤ saturatingAdd maxTtlSecs cfg.leewaySecs) .ttlTooLong
  (validateClaims claims).mapError .badClaims
  return claims

end SignVerify

/-! ### How long a token lives -/

section Lifetime

variable {τ : Type} {jwt : Jwt τ} {cfg : UploadTokenConfig} {now : ℕ} {token : τ}
  {claims : UploadTokenClaims}

structure Passes (cfg : UploadTokenConfig) (now : ℕ) (claims : UploadTokenClaims) : Prop where
  aud : claims.aud = tokenAud
  version : claims.v = claimsVersion
  fresh : now ≤ claims.exp + cfg.leewaySecs
  forward : claims.iat < claims.exp
  issued : claims.iat ≤ saturatingAdd now cfg.leewaySecs
  short : claims.exp - claims.iat ≤ saturatingAdd maxTtlSecs cfg.leewaySecs
  valid : validateClaims claims = .ok ()

lemma verify_eq_ok : verify jwt cfg now token = .ok claims ↔
    ∃ kid secret, jwt.header token = some ⟨.hs256, kid, some tokenTyp⟩ ∧
      cfg.resolveSecret kid = some secret ∧ jwt.signedBy token secret = true ∧
      jwt.payload token = some claims ∧ Passes cfg now claims := by
  simp only [verify, Jwt.decode, bind_eq_ok, found_ok, check_ok, mapError_ok, exists_const,
    decide_eq_true_eq]
  constructor
  · rintro ⟨⟨_, kid, _⟩, hheader, rfl, rfl, secret, hsecret, _,
      ⟨hsigned, _, hpayload, hfresh, haud, ⟨⟩⟩, hv, hforward, hissued, hshort, _, hvalid, ⟨⟩⟩
    exact ⟨kid, secret, hheader, hsecret, hsigned, hpayload,
      ⟨haud, hv, hfresh, hforward, hissued, hshort, hvalid⟩⟩
  · rintro ⟨kid, secret, hheader, hsecret, hsigned, hpayload, h⟩
    exact ⟨_, hheader, rfl, rfl, secret, hsecret, claims,
      ⟨hsigned, claims, hpayload, h.fresh, h.aud, rfl⟩, h.version, h.forward, h.issued, h.short, (),
      h.valid, rfl⟩

end Lifetime

def sampleConfig : UploadTokenConfig :=
  ⟨fun kid => if kid = "v1" then some "key" else none, "v1", 30, 600⟩

def sampleClaims : UploadTokenClaims where
  v := 0
  uploadId := "0a"
  aud := ""
  uid := 7
  prp := "u"
  ft := "image"
  bt := "message"
  mx := 100
  filename := none
  plaintextSha256 := none
  plaintextSize := none
  chunkPlainSize := none
  formatVersion := none
  encryptionKeyId := none
  sealedBlobSize := some 90
  mimeType := none
  nodeId := none
  uploadBaseUrl := none
  plan := none
  iat := 0
  exp := 0

end PrivChat.Uploads
