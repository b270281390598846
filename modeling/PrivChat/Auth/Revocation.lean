import PrivChat.Auth.Capability

/-!
A refresh token that was revoked is dead.

The record of the token stays revoked. Who looks at it refuses the token: the service when it
renews, and introspection. The RPC that renews tokens does not look at it.
-/

namespace PrivChat.Auth

open Db Tasks Server

variable {cfg : Config} {s s' : Server} {i : ℕ} {j : Job} {jti : Jti}

namespace Server

def revoked (s : Server) (jti : Jti) : Bool := (s.records.get jti).any (·.isRevoked)

lemma revoked_iff : s.revoked jti = true ↔ ∃ r, s.records.get jti = some r ∧ r.isRevoked = true :=
  Option.any_eq_true _ _

/-- Every record is that of a token, under the id of the token. -/
def Filed (cfg : Config) (s : Server) : Prop :=
  ∀ jti r, s.records.get jti = some r →
    ∃ token : UnifiedTokenClaims, token.jti = jti ∧ r.tokenHash = cfg.hashRefreshToken token

/-- What a statement leaves of a record: its hash, and that it is revoked. -/
structure RecordKept (r r' : RefreshTokenRecord) : Prop where
  tokenHash : r'.tokenHash = r.tokenHash
  isRevoked : r.isRevoked = true → r'.isRevoked = true

/-- What becomes of the record of an id: nothing, or it is changed, or filed for a token. -/
inductive RecordStep (cfg : Config) (jti : Jti) :
    Option RefreshTokenRecord → Option RefreshTokenRecord → Prop
  | same (x : Option RefreshTokenRecord) : RecordStep cfg jti x x
  | kept {r r' : RefreshTokenRecord} : RecordKept r r' → RecordStep cfg jti (some r) (some r')
  | filed {r : RefreshTokenRecord} (token : UnifiedTokenClaims) : token.jti = jti →
      r.tokenHash = cfg.hashRefreshToken token → RecordStep cfg jti none (some r)

lemma recordStep_after (cfg : Config) (s : Server) (o : Moment) (op : Op) (jti : Jti) :
    RecordStep cfg jti (s.records.get jti) ((s.after cfg o op).records.get jti) := by
  simp only [Server.after]
  split
  case isFalse => exact .same _
  cases op with
  | insertRecord u deviceId token v expiresAt createdAt =>
    simp only [recordsAfter]
    split
    · exact .same _
    · rename_i hnone
      by_cases hj : jti = token.jti
      · subst hj
        rw [hnone, Table.get_put_self]
        exact .filed token rfl rfl
      · rw [Table.get_put_of_ne _ hj]
        exact .same _
  | touchLastUsed jti' at_ =>
    simp only [recordsAfter, Table.get_modify]
    split
    · rename_i hj
      subst hj
      cases s.records.get jti with
      | none => exact .same _
      | some r => exact .kept ⟨rfl, id⟩
    · exact .same _
  | revokeRecords req at_ =>
    simp only [recordsAfter, Table.get_updateWhere]
    cases s.records.get jti with
    | none => exact .same _
    | some r =>
      refine .kept ?_
      dsimp only
      split
      · exact ⟨rfl, fun _ => rfl⟩
      · exact ⟨rfl, id⟩
  | _ => exact .same _

lemma Filed.after (h : s.Filed cfg) {o : Moment} {op : Op} : (s.after cfg o op).Filed cfg := by
  intro jti r' hr'
  have hold := h jti
  have hstep := s.recordStep_after cfg o op jti
  rw [hr'] at hstep
  generalize s.records.get jti = x at hold hstep
  cases hstep with
  | same => exact hold r' rfl
  | kept hkept =>
    obtain ⟨token, hj, hhash⟩ := hold _ rfl
    exact ⟨token, hj, hkept.tokenHash.trans hhash⟩
  | filed token hj hhash => exact ⟨token, hj, hhash⟩

lemma revoked_after (h : s.revoked jti = true) (o : Moment) (op : Op) :
    (s.after cfg o op).revoked jti = true := by
  have hstep := s.recordStep_after cfg o op jti
  unfold revoked at h ⊢
  generalize s.records.get jti = x at h hstep
  generalize (s.after cfg o op).records.get jti = x' at hstep ⊢
  cases hstep with
  | same => exact h
  | kept hkept => exact hkept.isRevoked h
  | filed => cases h

end Server

/-- Tokens with the same hash have the same id. -/
def Config.NoCollision (cfg : Config) : Prop :=
  ∀ t t', cfg.hashRefreshToken t = cfg.hashRefreshToken t' → t.jti = t'.jti

/-! ### The request to revoke -/

def RevokeRequest.Names (token : UnifiedTokenClaims) : RevokeRequest → Prop
  | .byJti jti => jti = token.jti
  | .byRefreshToken t => t = token

/-- The records are filed, and what is revoked stays so. -/
def filing (cfg : Config) : Terms Server Op Moment Job where
  inv := Filed cfg
  moves s s' := ∀ jti, s.revoked jti = true → s'.revoked jti = true
  owes _ _ := True
  given _ _ _ _ _ := True
  refl _ _ h := h
  trans h h' jti hj := h' jti (h jti hj)

lemma steady_filing (cfg : Config) : (machine cfg).Steady (filing cfg) where
  call op o _ hI := ⟨Filed.after hI, fun _ h => revoked_after h o op⟩
  env x := nomatch x

variable {req : RevokeRequest} {token : UnifiedTokenClaims}

lemma RevokeRequest.Names.jti_eq (hhash : cfg.NoCollision) (hnames : req.Names token)
    (hfiled : s.Filed cfg) {r : RefreshTokenRecord} (hr : s.records.get jti = some r)
    (hconcerns : req.concerns cfg jti r = true) : jti = token.jti := by
  cases req with
  | byJti jti' =>
    cases hnames
    simpa [RevokeRequest.concerns] using hconcerns
  | byRefreshToken t =>
    cases hnames
    obtain ⟨token', rfl, hhash'⟩ := hfiled jti r hr
    have hsame : cfg.hashRefreshToken token' = cfg.hashRefreshToken token := by
      rw [← hhash']
      simpa [RevokeRequest.concerns] using hconcerns
    exact hhash token' token hsame

lemma revoked_of_revocable (hhash : cfg.NoCollision)
    (hnames : req.Names token) (hfiled : s.Filed cfg) (hcount : 1 ≤ s.revocable cfg req)
    {o : Moment} (hfault : o.fault = none) {at_ : ℤ} :
    (s.after cfg o (.revokeRecords req at_)).revoked token.jti = true := by
  obtain ⟨⟨jti, r⟩, hmem⟩ := List.exists_mem_of_length_pos hcount
  obtain ⟨hr, hp⟩ := Table.mem_select.mp hmem
  obtain ⟨hconcerns, hlive⟩ := Bool.and_eq_true_iff.mp hp
  rw [Bool.not_eq_true'] at hlive
  rw [← hnames.jti_eq hhash hfiled hr hconcerns]
  refine revoked_iff.mpr ⟨RefreshTokenRecord.revoke at_ req.reason r, ?_, rfl⟩
  simp [Server.after, Moment.takesEffect, hfault, recordsAfter, Table.get_updateWhere, hr,
    hconcerns, hlive]

/-- A request to revoke that has counted records of the token has revoked it. -/
def Revokes (token : UnifiedTokenClaims) (j : Job) (r : Except AuthError Reply) (s : Server) :
    Prop :=
  ∀ req n, j = .revoke req → req.Names token → r = .ok (.affected n) → 1 ≤ n →
    s.revoked token.jti = true

lemma keeps_revoke (hhash : cfg.NoCollision) (hnames : req.Names token) :
    Yields (machine cfg) (filing cfg) i j
      (fun n s' => 1 ≤ n → s'.revoked token.jti = true) (revoke req) s := by
  have hU := (steady_filing cfg).upholds
  refine Yields.bind (φ := fun _ _ => True) hU ?_ fun at_ s1 _ _ _ => ?_
  · exact Yields.call hU (fun _ _ _ => trivial) fun _ _ _ _ _ => Yields.ret fun _ _ _ => trivial
  · refine Yields.call hU (fun _ _ _ => trivial) fun o s2 _ hI _ => ?_
    refine yields_orFail fun n hn s3 hs3 _ hle => ?_
    obtain ⟨hf, rfl⟩ := Moment.answer_eq_ok hn
    exact hs3 _ (revoked_of_revocable hhash hnames hI hle hf)

/-- **Who reports a token revoked has revoked it**, at the end of every run. -/
lemma revoked_of_finished (hhash : cfg.NoCollision) (hfiled : s.Filed cfg) {evs : List AuthEvent}
    (hnames : req.Names token) {n : ℕ} (hn : 1 ≤ n)
    (hfin : ((machine cfg).run (State.init s) evs).tasks i =
      .finished (.revoke req) (.ok (.affected n))) :
    ((machine cfg).run (State.init s) evs).shared.revoked token.jti = true := by
  have hfree : Watched (machine cfg) (filing cfg) (fun j => j = .revoke req) (Revokes token) i
      ((State.init s : AuthTasks).tasks i) s := trivial
  have hwatched := Watched.run (s := State.init s) (steady_filing cfg) (fun _ _ _ _ _ => trivial)
    (fun j r s s' hs _ h req n hj hnames hr hn => hs _ (h req n hj hnames hr hn))
    (fun _ _ => True) (fun j s _ _ _ hj => ?_) hfiled hfree evs (startsRun_true ..)
  · rw [hfin] at hwatched
    exact hwatched.2 rfl req n rfl hnames rfl hn
  · subst hj
    have hU := (steady_filing cfg).upholds
    refine Keeps.mono hU (Yields.bind (ψ := fun reply s' => ∀ n, reply = Reply.affected n →
      1 ≤ n → s'.revoked token.jti = true) hU (keeps_revoke hhash hnames) fun n s1 _ _ hn =>
        Yields.ret fun s2 hs2 _ n' hn' hle => ?_) fun r s1 _ _ hr req' n' _ _ hok hle =>
          hr _ hok n' rfl hle
    cases hn'
    exact hs2 _ (hn hle)

/-! ### The token afterwards -/

def Job.Uses (token : UnifiedTokenClaims) : Job → Prop
  | .refresh t _ => t = token
  | .refreshRpc t _ => t = token
  | .introspect t => t = token
  | _ => False

def Op.mints : Op → Bool
  | .sign _ _ _ => true
  | _ => false

/-- The request has got nothing out of the token. -/
def Refused (r : Except AuthError Reply) : Prop :=
  ∀ reply, r = .ok reply → ∃ reason, reply = .introspected (.error reason)

/-- The record is revoked, and nobody signs anything. -/
def dead (jti : Jti) : Terms Server Op Moment Job where
  inv s := s.revoked jti = true
  moves _ _ := True
  owes op _ := op.mints = false
  given _ _ _ _ _ := True
  refl _ := trivial
  trans _ _ := trivial

lemma steady_dead : (machine cfg).Steady (dead jti) where
  call op o _ hI := ⟨revoked_after hI o op, trivial⟩
  env x := nomatch x

variable {β : Type}

/-- Without signing anything, the code returns what `φ` says. -/
abbrev DeadYields (cfg : Config) (token : UnifiedTokenClaims) (i : ℕ) (j : Job) (φ : β → Prop)
    (t : AuthProg β) (s : Server) : Prop :=
  Yields (machine cfg) (dead token.jti) i j (fun b _ => φ b) t s

section Dead

variable {token : UnifiedTokenClaims}

lemma DeadYields.bind {γ : Type} {φ : β → Prop} {ψ : γ → Prop} {t : AuthProg β} {g : β → AuthProg γ}
    (h : DeadYields cfg token i j φ t s) (hg : ∀ b s', φ b → DeadYields cfg token i j ψ (g b) s') :
    DeadYields cfg token i j ψ (t >>= g) s :=
  Yields.bind steady_dead.upholds h fun b s' _ _ hb => hg b s' hb

lemma deadYields_call {φ : β → Prop} {op : Op} {k : op.Res → AuthProg β} (hop : op.mints = false)
    (hk : ∀ o (s' : Server), s'.revoked token.jti = true →
      DeadYields cfg token i j φ (k (s'.respond cfg o op)) (s'.after cfg o op)) :
    DeadYields cfg token i j φ (.call op k) s :=
  Yields.call steady_dead.upholds (fun _ _ _ => hop) fun o s' _ hI _ => hk o s' hI

lemma deadYields_verify {typ : TokenType} {error : VerifyError → AuthError} :
    DeadYields cfg token i j (fun signed => signed.claims = token) (verify token typ error) s := by
  refine deadYields_call rfl fun o s1 _ => yields_orRefuse fun signed hr _ _ _ => ?_
  exact (Config.verify_eq_ok hr).2.1

lemma deadYields_findByJti : DeadYields cfg token i j
    (fun record => ∃ r, record = some r ∧ r.isRevoked = true) (findByJti token.jti) s := by
  refine deadYields_call rfl fun o s1 hrevoked => ?_
  refine yields_orFail fun record hrecord _ _ _ => ?_
  obtain ⟨-, rfl⟩ := Moment.answer_eq_ok hrecord
  exact revoked_iff.mp hrevoked

lemma deadYields_liveRecord : DeadYields cfg token i j (fun _ => False) (liveRecord cfg token) s :=
    by
  refine deadYields_findByJti.bind fun record s1 ⟨r, hrecord, hrevoked⟩ => ?_
  subst hrecord
  dsimp only
  split_ifs
  · exact Yields.fail
  · exact Yields.fail

variable {deviceId : String}

lemma deadYields_refresh :
    DeadYields cfg token i j (fun _ => False) (refresh cfg token deviceId) s := by
  refine deadYields_verify.bind fun signed s1 hsigned => ?_
  rw [hsigned]
  split_ifs
  · exact Yields.fail
  · exact deadYields_liveRecord.bind fun _ _ h => h.elim

lemma deadYields_refreshRpc (h : cfg.isBuiltin = false) :
    DeadYields cfg token i j (fun _ => False) (refreshRpc cfg token deviceId) s := by
  unfold refreshRpc
  rw [h]
  exact Yields.fail

/-- What has been verified, if anything, is the token. -/
def VerifiedAs (token : UnifiedTokenClaims) (r : Except String Signed) : Prop :=
  ∀ signed, r = .ok signed → signed.claims = token

lemma deadYields_introspectVerify :
    DeadYields cfg token i j (VerifiedAs token) (introspectVerify token) s := by
  have hok : ∀ {tokens typ now signed s}, cfg.verify tokens token typ now = .ok signed →
      DeadYields cfg token i j (VerifiedAs token) (.ret (.ok signed)) s := by
    intro _ _ _ _ _ hr
    refine Yields.ret fun _ _ _ _ hs => ?_
    cases hs
    exact (Config.verify_eq_ok hr).2.1
  have hno : ∀ {reason s}, DeadYields cfg token i j (VerifiedAs token) (.ret (.error reason)) s :=
    Yields.ret fun _ _ _ => nofun
  refine deadYields_call rfl fun o s1 _ => ?_
  split
  · exact hok ‹_›
  · exact hno
  · refine deadYields_call rfl fun o s2 _ => ?_
    split
    · exact hok ‹_›
    · exact hno
    · exact hno

lemma deadYields_verifyDeviceSession {u : ℕ} {v : ℤ} :
    DeadYields cfg token i j (fun _ => True) (verifyDeviceSession cfg u deviceId v) s := by
  unfold verifyDeviceSession selectDevice deviceUuid
  split
  · refine DeadYields.bind (φ := fun _ => True) ?_ fun _ _ _ => Yields.ret fun _ _ _ => trivial
    exact deadYields_call rfl fun o s1 _ => yields_orFail fun _ _ _ _ _ => trivial
  · exact Yields.fail

lemma deadYields_introspectSession {claims : UnifiedTokenClaims} :
    DeadYields cfg token i j (fun _ => True) (introspectSession cfg claims) s := by
  refine Yields.bind steady_dead.upholds
    (Yields.attempt steady_dead.upholds deadYields_verifyDeviceSession) fun r s1 _ _ _ => ?_
  split <;> exact Yields.ret fun _ _ _ => trivial

lemma deadYields_introspectRecord : DeadYields cfg token i j
    (fun r => ∃ reason, r = .error reason) (introspectRecord token.jti) s := by
  refine Yields.bind steady_dead.upholds
    (Yields.attempt steady_dead.upholds deadYields_findByJti) fun x s1 _ _ hx => ?_
  cases x with
  | error e => exact Yields.ret fun _ _ _ => ⟨_, rfl⟩
  | ok record =>
    obtain ⟨r, rfl, hrevoked⟩ := hx record rfl
    dsimp only
    rw [if_pos hrevoked]
    exact Yields.ret fun _ _ _ => ⟨_, rfl⟩

lemma deadYields_introspect (htyp : token.tokenType = .refresh) : DeadYields cfg token i j
    (fun r => ∃ reason, r = .error reason) (introspect cfg token) s := by
  refine deadYields_introspectVerify.bind fun x s1 hx => ?_
  cases x with
  | error reason => exact Yields.ret fun _ _ _ => ⟨reason, rfl⟩
  | ok signed =>
    have hclaims := hx signed rfl
    refine deadYields_introspectSession.bind fun y s2 _ => ?_
    cases y with
    | error reason => exact Yields.ret fun _ _ _ => ⟨reason, rfl⟩
    | ok _ =>
      rw [hclaims]
      unfold introspectKind
      rw [htyp]
      refine deadYields_introspectRecord.bind fun z s3 ⟨reason, hz⟩ => ?_
      subst hz
      exact Yields.ret fun _ _ _ => ⟨reason, rfl⟩

end Dead

/-- The RPC is not asked to renew a token that is revoked, if it renews any. -/
def MayRefresh (cfg : Config) : Job → Server → Prop
  | .refreshRpc token _, s => cfg.isBuiltin = true → s.revoked token.jti = false
  | _, _ => True

lemma keeps_refused {token : UnifiedTokenClaims} (htyp : token.tokenType = .refresh)
    (hs : s.revoked token.jti = true) (hmay : MayRefresh cfg j s) (huses : j.Uses token) :
    Keeps (machine cfg) (dead token.jti) i j (fun r _ => Refused r) (progOf cfg j) s := by
  cases j with
  | refresh t deviceId =>
    cases huses
    exact deadYields_refresh.bind fun _ _ h => h.elim
  | refreshRpc t deviceId =>
    cases huses
    have hplatform : cfg.isBuiltin = false := by
      refine Bool.eq_false_iff.mpr fun hb => ?_
      rw [hmay hb] at hs
      cases hs
    exact (deadYields_refreshRpc hplatform).bind fun _ _ h => h.elim
  | introspect t =>
    cases huses
    refine (deadYields_introspect htyp).bind fun r s1 ⟨reason, hr⟩ => ?_
    subst hr
    exact Yields.ret fun _ _ _ => ⟨reason, rfl⟩
  | _ => exact huses.elim

/-- **A revoked refresh token is dead**, in every run in which the RPC is not asked to renew a
token that is revoked. A request to revoke, by id or by the token itself, has counted a record.
Whatever uses the token later signs nothing, renews nothing and does not find it active. -/
theorem revoked_token_is_dead (cfg : Config) (hhash : cfg.NoCollision) (s : Server)
    (hfiled : s.Filed cfg) (evs evs' : List AuthEvent) (before after : AuthTasks)
    (hbefore : before = (machine cfg).run (State.init s) evs)
    (hafter : after = (machine cfg).run before evs')
    (hmay : StartsRun (machine cfg) (MayRefresh cfg) before evs')
    (token : UnifiedTokenClaims) (htyp : token.tokenType = .refresh) (req : RevokeRequest)
    (hnames : req.Names token) (k n : ℕ) (hn : 1 ≤ n)
    (hrevoked : before.tasks k = .finished (.revoke req) (.ok (.affected n)))
    (i : ℕ) (hfree : before.tasks i = .free) :
    (∀ j op, (after.tasks i).next = some (j, op) → j.Uses token → op.mints = false) ∧
      ∀ j r, after.tasks i = .finished j r → j.Uses token → Refused r := by
  subst hbefore
  have hdead := revoked_of_finished hhash hfiled hnames hn hrevoked
  have hstart : Watched (machine cfg) (dead token.jti) (Job.Uses token) (fun _ r _ => Refused r) i
      (((machine cfg).run (State.init s) evs).tasks i)
      ((machine cfg).run (State.init s) evs).shared := by
    rw [hfree]
    trivial
  obtain ⟨hI, hwatched⟩ := Watched.run steady_dead (fun _ _ _ _ _ => trivial)
    (fun _ _ _ _ _ _ h => h) (MayRefresh cfg)
    (fun j s hs _ hmay huses => keeps_refused htyp hs hmay huses) hdead hstart evs' hmay
  rw [← hafter] at hI hwatched
  refine ⟨fun j op hnext huses => hwatched.owes hI hnext huses, fun j r hfin huses => ?_⟩
  rw [hfin] at hwatched
  exact hwatched huses

def sampleToken : UnifiedTokenClaims :=
  sampleConfig.claimsOf .refresh (sampleIssue.claims sampleConfig "phone" 1) 1 "uuid-0"

/-- A session is opened, and its refresh token is revoked. -/
def sampleRevocation : List AuthEvent :=
  .start 0 (.issue sampleIssue) :: List.replicate 6 (.step 0 sampleMoment) ++
    .start 1 (.revoke (.byJti "uuid-0")) :: List.replicate 3 (.step 1 sampleMoment)

def sampleUse (j : Job) : List AuthEvent := .start 2 j :: List.replicate 8 (.step 2 sampleMoment)

def sampleResult (evs : List AuthEvent) (i : ℕ) : Option (Job × Except AuthError Reply) :=
  match (sampleTasks evs).tasks i with
  | .finished j r => some (j, r)
  | .free | .running _ _ => none

lemma finished_sampleResult {evs : List AuthEvent} {r : Except AuthError Reply}
    (h : sampleResult evs i = some (j, r)) : (sampleTasks evs).tasks i = .finished j r := by
  unfold sampleResult at h
  split at h
  · rename_i hfin
    cases h
    exact hfin
  · cases h
  · cases h

theorem revoked_token_is_dead_sample :
    ∃ r, (sampleTasks (sampleRevocation ++ sampleUse (.refresh sampleToken "phone"))).tasks 2 =
      .finished (.refresh sampleToken "phone") r ∧ Refused r := by
  have hrevoked : sampleResult sampleRevocation 1 =
      some (.revoke (.byJti "uuid-0"), .ok (.affected 1)) := by decide +kernel
  have hresult : ∀ x ∈ sampleResult (sampleRevocation ++
      sampleUse (.refresh sampleToken "phone")) 2, x.1 = .refresh sampleToken "phone" := by
    decide +kernel
  have hsome : (sampleResult (sampleRevocation ++
      sampleUse (.refresh sampleToken "phone")) 2).isSome = true := by decide +kernel
  obtain ⟨⟨j, r⟩, hx⟩ := Option.isSome_iff_exists.mp hsome
  obtain rfl : j = .refresh sampleToken "phone" := hresult _ hx
  have hfree : (sampleTasks sampleRevocation).tasks 2 = .free := rfl
  have hrun : sampleTasks (sampleRevocation ++ sampleUse (.refresh sampleToken "phone")) =
      (machine sampleConfig).run (sampleTasks sampleRevocation)
        (sampleUse (.refresh sampleToken "phone")) := Machine.run_append ..
  have hstarts : StartsRun (machine sampleConfig) (MayRefresh sampleConfig)
      (sampleTasks sampleRevocation) (sampleUse (.refresh sampleToken "phone")) := by
    refine ⟨trivial, ?_⟩
    simp [StartsRun, StartsAt, List.replicate]
  refine ⟨r, finished_sampleResult hx, ?_⟩
  exact (revoked_token_is_dead sampleConfig (fun _ _ h => h) (start .empty .empty []) nofun
    sampleRevocation _ _ _ rfl hrun hstarts sampleToken rfl (.byJti "uuid-0") rfl 1 1 le_rfl
    (finished_sampleResult hrevoked) 2 hfree).2 _ _ (finished_sampleResult hx) rfl

theorem rpc_renews_revoked_token :
    sampleResult sampleRevocation 1 = some (.revoke (.byJti "uuid-0"), .ok (.affected 1)) ∧
      ((sampleResult (sampleRevocation ++ sampleUse (.refreshRpc sampleToken "phone")) 2).any
        fun x => x.1 = .refreshRpc sampleToken "phone" &&
          (x.2.toOption.bind Reply.renewed).isSome) = true := by
  decide +kernel

end PrivChat.Auth
