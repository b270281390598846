import PrivChat.Auth.Signing

/-!
What a token allows, and what becomes of it when it is renewed.

The scopes of a token say which routes and messages it may be used for. Both ways to renew an
access token start from the refresh token. The service signs the scopes of the refresh token
again; the RPC signs the default ones.
-/

namespace PrivChat.Auth

open Tasks Server

/-! ### Scopes -/

/-- The routes the restricted scope is about. -/
inductive Route
  | messageHistoryGet | messageHistoryAround
  | messageStatusReadPts | messageStatusCount | messageStatusReadList | messageStatusReadStats
  | messageRevoke
  | messageReactionAdd | messageReactionRemove | messageReactionList | messageReactionStats
  | syncSubmit | syncGetDifference | syncGetChannelPts | syncBatchGetChannelPts
  | syncSessionReady | entitySyncEntities
  | fileRequestUploadToken | fileUploadCallback | fileGetUrl
  | channelPin | channelHide | channelMute | presenceTyping | presenceStatusGet
  | accountProfileGet | accountProfileUpdate | accountUserDetail
  | authLogout | authRefresh | devicePushUpdate | devicePushStatus
  | other (name : String)
  deriving DecidableEq

inductive MessageType
  | authorizationRequest | disconnectRequest | sendMessageRequest | pingRequest | rpcRequest
  | publishRequest | subscribeRequest | transferRequest | pushMessageRequest
  | other (name : String)
  deriving DecidableEq

def scopeMessaging : String := "messaging"

/-- Scopes that are not known to be restricted allow everything. -/
def isFullAccessScope (scope : String) : Bool := scope ≠ scopeMessaging

def messagingRoutes : List Route :=
  [.messageHistoryGet, .messageHistoryAround, .messageStatusReadPts, .messageStatusCount,
    .messageStatusReadList, .messageStatusReadStats, .messageRevoke, .messageReactionAdd,
    .messageReactionRemove, .messageReactionList, .messageReactionStats, .syncSubmit,
    .syncGetDifference, .syncGetChannelPts, .syncBatchGetChannelPts, .syncSessionReady,
    .entitySyncEntities, .fileRequestUploadToken, .fileUploadCallback, .fileGetUrl, .channelPin,
    .channelHide, .channelMute, .presenceTyping, .presenceStatusGet, .accountProfileGet,
    .accountProfileUpdate, .accountUserDetail, .authLogout, .authRefresh, .devicePushUpdate,
    .devicePushStatus]

def messagingMessageTypes : List MessageType :=
  [.authorizationRequest, .disconnectRequest, .sendMessageRequest, .pingRequest, .rpcRequest]

/-- A list of scopes allows what one of them allows. Without any, everything is allowed. -/
def allows {β : Type} [DecidableEq β] (restricted : List β) (scopes : List String) (b : β) : Bool :=
  scopes.isEmpty || scopes.any fun scope =>
    isFullAccessScope scope || (scope = scopeMessaging && b ∈ restricted)

def allowsRpcRoute (scopes : List String) (route : Route) : Bool :=
  allows messagingRoutes scopes route

def allowsMessageType (scopes : List String) (typ : MessageType) : Bool :=
  allows messagingMessageTypes scopes typ

/-- Whatever the new scopes allow, the old ones did. -/
def NoWider (new old : List String) : Prop :=
  (∀ route, allowsRpcRoute new route = true → allowsRpcRoute old route = true) ∧
    ∀ typ, allowsMessageType new typ = true → allowsMessageType old typ = true

lemma noWider_refl (scopes : List String) : NoWider scopes scopes :=
  ⟨fun _ h => h, fun _ h => h⟩

/-- There is no scope, or one that is not restricted. -/
def FullAccess (scopes : List String) : Prop :=
  scopes = [] ∨ ∃ scope ∈ scopes, isFullAccessScope scope = true

variable {scopes : List String}

lemma FullAccess.allows {β : Type} [DecidableEq β] {restricted : List β}
    (h : FullAccess scopes) {b : β} : allows restricted scopes b = true := by
  unfold Auth.allows
  rcases h with rfl | ⟨scope, hscope, hfull⟩
  · rfl
  · rw [Bool.or_eq_true, List.any_eq_true]
    exact Or.inr ⟨scope, hscope, by rw [hfull, Bool.true_or]⟩

lemma allowsRpcRoute_other {name : String} :
    allowsRpcRoute scopes (.other name) = true ↔ FullAccess scopes := by
  constructor
  · intro h
    simp only [allowsRpcRoute, allows, Bool.or_eq_true, List.isEmpty_iff, List.any_eq_true,
      Bool.and_eq_true, decide_eq_true_eq] at h
    rcases h with hnil | ⟨scope, hscope, hfull | ⟨-, hmem⟩⟩
    · exact Or.inl hnil
    · exact Or.inr ⟨scope, hscope, hfull⟩
    · simp [messagingRoutes] at hmem
  · exact fun h => h.allows

lemma noWider_iff_of_fullAccess {new old : List String} (h : FullAccess new) :
    NoWider new old ↔ FullAccess old := by
  constructor
  · intro hnew
    exact allowsRpcRoute_other.mp (hnew.1 (.other "") h.allows)
  · exact fun hold => ⟨fun _ _ => hold.allows, fun _ _ => hold.allows⟩

/-! ### Renewing -/

inductive EntryPoint
  | service | rpc

def EntryPoint.job : EntryPoint → UnifiedTokenClaims → String → Job
  | .service, token, deviceId => .refresh token deviceId
  | .rpc, token, deviceId => .refreshRpc token deviceId

def Reply.renewed : Reply → Option UnifiedTokenClaims
  | .issued r => some r.accessToken
  | .refreshed r => some r.accessToken
  | _ => none

/-- The refresh token the caller has afterwards. -/
def Reply.keeps (token : UnifiedTokenClaims) : Reply → UnifiedTokenClaims
  | .issued r => r.refreshToken
  | _ => token

/-- An access token was got with the refresh token, by the last of a chain of calls, of which each
uses the refresh token the caller has after the call before. -/
inductive Obtained (S : AuthTasks) : UnifiedTokenClaims → EntryPoint → UnifiedTokenClaims → Prop
  | call {token access : UnifiedTokenClaims} {e : EntryPoint} (i : ℕ) (deviceId : String)
      (reply : Reply) : S.tasks i = .finished (e.job token deviceId) (.ok reply) →
      reply.renewed = some access → Obtained S token e access
  | chain {token access : UnifiedTokenClaims} {e e' : EntryPoint} (i : ℕ) (deviceId : String)
      (reply : Reply) : S.tasks i = .finished (e.job token deviceId) (.ok reply) →
      Obtained S (reply.keeps token) e' access → Obtained S token e' access

def Renewal (j : Job) (r : Except AuthError Reply) : Prop :=
  match j with
  | .refresh token _ => ∀ reply, r = .ok reply →
      ∃ x : IssueResult, reply = .issued x ∧ x.accessToken.scope = token.scope ∧
        x.refreshToken = token
  | .refreshRpc _ _ => ∀ reply, r = .ok reply →
      ∃ x : RefreshResponse, reply = .refreshed x ∧ x.accessToken.scope = ["user"]
  | _ => True

variable {cfg : Config} {s : Server} {i : ℕ} {j : Job} {β : Type}

abbrev noTerms : Terms Server Op Moment Job := Terms.trivial Server Op Moment Job

lemma steady_noTerms : (machine cfg).Steady noTerms where
  call _ _ _ _ := ⟨trivial, trivial⟩
  env x := nomatch x

/-- Whatever the answers, the code returns what `φ` says. -/
abbrev Only (cfg : Config) (i : ℕ) (j : Job) (φ : β → Prop) (t : AuthProg β) (s : Server) : Prop :=
  Yields (machine cfg) noTerms i j (fun b _ => φ b) t s

lemma only_any {t : AuthProg β} : Only cfg i j (fun _ => True) t s := by
  induction t generalizing s with
  | ret a => exact fun _ _ _ _ _ => trivial
  | fail e => exact fun _ _ _ => nofun
  | call op k ih => exact fun _ _ _ => ⟨trivial, fun _ _ => ih _⟩

lemma Only.bind {γ : Type} {φ : β → Prop} {ψ : γ → Prop} {t : AuthProg β} {g : β → AuthProg γ}
    (h : Only cfg i j φ t s) (hg : ∀ b s', φ b → Only cfg i j ψ (g b) s') :
    Only cfg i j ψ (t >>= g) s :=
  Yields.bind steady_noTerms.upholds h fun b s' _ _ hb => hg b s' hb

lemma only_call {φ : β → Prop} {op : Op} {k : op.Res → AuthProg β}
    (hk : ∀ o (s' : Server), Only cfg i j φ (k (s'.respond cfg o op)) (s'.after cfg o op)) :
    Only cfg i j φ (.call op k) s :=
  Yields.call steady_noTerms.upholds (fun _ _ _ => trivial) fun o s' _ _ _ => hk o s'

variable {token : UnifiedTokenClaims} {deviceId : String} {typ : TokenType}

lemma only_verify {error : VerifyError → AuthError} :
    Only cfg i j (fun signed => signed.claims = token) (verify token typ error) s := by
  refine only_call fun o s1 => yields_orRefuse fun signed hr _ _ _ => ?_
  exact (Config.verify_eq_ok hr).2.1

lemma only_sign {params : IssueClaims} {readAt : Option ℕ} :
    Only cfg i j (fun signed => signed.claims.scope = params.scope) (sign typ params readAt) s :=
  only_call fun _ _ => Yields.ret fun _ _ _ => rfl

lemma only_refresh :
    Only cfg i j (fun x => x.accessToken.scope = token.scope ∧ x.refreshToken = token)
      (refresh cfg token deviceId) s := by
  refine only_verify.bind fun signed s1 hsigned => ?_
  subst hsigned
  split_ifs
  · exact Yields.fail
  · refine only_any.bind fun live s2 _ => only_any.bind fun check s3 _ => ?_
    obtain ⟨result, k⟩ := check
    cases result with
    | valid c =>
      refine only_sign.bind fun access s4 hscope => ?_
      refine only_call fun _ _ => ?_
      exact only_any.bind fun _ _ _ => Yields.ret fun _ _ _ => ⟨hscope, rfl⟩
    | deviceNotFound | sessionInactive _ _ | versionMismatch _ _ => exact Yields.fail

lemma only_refreshRpc :
    Only cfg i j (fun x => x.accessToken.scope = ["user"]) (refreshRpc cfg token deviceId) s := by
  unfold refreshRpc requireUuid
  split
  · exact Yields.fail
  · split
    · exact Yields.fail
    · refine only_verify.bind fun signed s1 _ => ?_
      split_ifs
      · exact Yields.fail
      · refine only_any.bind fun check s2 _ => ?_
        cases check.1 with
        | valid c =>
          refine only_sign.bind fun access s3 hscope => ?_
          exact only_any.bind fun _ _ _ => Yields.ret fun _ _ _ => hscope
        | deviceNotFound | sessionInactive _ _ | versionMismatch _ _ => exact Yields.fail

lemma renewal_of_finished {evs : List AuthEvent} {r : Except AuthError Reply}
    (h : ((machine cfg).run (State.init s) evs).tasks i = .finished j r) : Renewal j r := by
  have hstart : ∀ (j : Job) (s : Server), Keeps (machine cfg) noTerms i j
      (fun r _ => Renewal j r) (progOf cfg j) s := by
    intro j s
    have hfree : ∀ t : AuthProg Reply, (∀ r, Renewal j r) →
        Keeps (machine cfg) noTerms i j (fun r _ => Renewal j r) t s := fun t hall =>
      Keeps.mono steady_noTerms.upholds only_any fun r _ _ _ _ => hall r
    cases j with
    | refresh token deviceId =>
      exact only_refresh.bind fun x _ hx => Yields.ret fun _ _ _ => ⟨x, rfl, hx⟩
    | refreshRpc token deviceId =>
      exact only_refreshRpc.bind fun x _ hx => Yields.ret fun _ _ _ => ⟨x, rfl, hx⟩
    | _ => exact hfree _ fun _ => trivial
  have hfree : Watched (machine cfg) noTerms (fun _ => True) (fun j r _ => Renewal j r) i
      ((State.init s : AuthTasks).tasks i) s := trivial
  have hwatched := Watched.run steady_noTerms (fun _ _ _ _ _ => trivial)
    (fun _ _ _ _ _ _ h => h) (fun _ _ => True) (fun j s _ _ _ _ => hstart j s) trivial hfree evs
    (startsRun_true ..)
  rw [h] at hwatched
  exact hwatched.2 trivial

/-- **Renewing a token widens it exactly when the RPC renews a restricted one.** The last call of
a chain decides. -/
theorem renewed_scope_noWider_iff (cfg : Config) (s : Server) (evs : List AuthEvent)
    (token access : UnifiedTokenClaims) (e : EntryPoint)
    (h : Obtained ((machine cfg).run (State.init s) evs) token e access) :
    NoWider access.scope token.scope ↔ e = .service ∨ FullAccess token.scope := by
  induction h with
  | @call token access e i deviceId reply hfin haccess =>
    have hrenewal := renewal_of_finished hfin
    cases e with
    | service =>
      obtain ⟨x, rfl, hscope, -⟩ := hrenewal reply rfl
      cases haccess
      simp only [hscope, true_or, iff_true]
      exact noWider_refl _
    | rpc =>
      obtain ⟨x, rfl, hscope⟩ := hrenewal reply rfl
      cases haccess
      have hfull : FullAccess ["user"] := Or.inr ⟨"user", List.mem_singleton_self _, by decide⟩
      rw [hscope, noWider_iff_of_fullAccess hfull]
      simp
  | @chain token access e e' i deviceId reply hfin _ ih =>
    -- no call hands out another refresh token
    have hkeeps : reply.keeps token = token := by
      have hrenewal := renewal_of_finished hfin
      cases e with
      | service =>
        obtain ⟨x, rfl, -, hsame⟩ := hrenewal reply rfl
        exact hsame
      | rpc =>
        obtain ⟨x, rfl, -⟩ := hrenewal reply rfl
        rfl
    rwa [hkeeps] at ih

/-- A restricted session, which the RPC is to renew. -/
def sampleRestricted : IssueParams := ⟨1, some "phone", "app", some ["messaging"], none, none⟩

/-- The server after the restricted session was opened, and the refresh token of it. -/
def sampleScoped : Server :=
  ((machine sampleConfig).evalIn sampleMoment (progOf sampleConfig (.issue sampleRestricted))
    (start .empty .empty [])).2

def sampleScopedToken : UnifiedTokenClaims :=
  sampleConfig.claimsOf .refresh (sampleRestricted.claims sampleConfig "phone" 1) 1 "uuid-0"

def sampleRenew (e : EntryPoint) : AuthTasks :=
  (machine sampleConfig).run (State.init sampleScoped)
    (.start 0 (e.job sampleScopedToken "phone") :: List.replicate 7 (.step 0 sampleMoment))

def sampleRenewed (e : EntryPoint) : Option UnifiedTokenClaims :=
  match (sampleRenew e).tasks 0 with
  | .finished j (.ok reply) =>
    if j = e.job sampleScopedToken "phone" then reply.renewed else none
  | _ => none

lemma obtained_sampleRenewed {e : EntryPoint} {access : UnifiedTokenClaims}
    (h : sampleRenewed e = some access) : Obtained (sampleRenew e) sampleScopedToken e access := by
  unfold sampleRenewed at h
  split at h
  · rename_i j reply hfin
    split_ifs at h with hj
    subst hj
    exact .call 0 "phone" reply hfin h
  · cases h

theorem renewed_scope_noWider_iff_sample :
    ∃ access, Obtained (sampleRenew .service) sampleScopedToken .service access ∧
      NoWider access.scope sampleScopedToken.scope := by
  have hrenewed : (sampleRenewed .service).isSome = true := by decide +kernel
  obtain ⟨access, haccess⟩ := Option.isSome_iff_exists.mp hrenewed
  have hobtained := obtained_sampleRenewed haccess
  exact ⟨access, hobtained, (renewed_scope_noWider_iff sampleConfig sampleScoped _ _ _ _
    hobtained).mpr (Or.inl rfl)⟩

/-- The RPC renews a restricted token, and the new one may create groups. -/
theorem rpc_renewal_widens : ∃ access, Obtained (sampleRenew .rpc) sampleScopedToken .rpc access ∧
      allowsRpcRoute access.scope (.other "group/create") = true ∧
      allowsRpcRoute sampleScopedToken.scope (.other "group/create") = false := by
  have hrenewed : ((sampleRenewed .rpc).any fun access =>
      allowsRpcRoute access.scope (.other "group/create")) = true := by decide +kernel
  obtain ⟨access, haccess, hallows⟩ := (Option.any_eq_true _ _).mp hrenewed
  exact ⟨access, obtained_sampleRenewed haccess, hallows, by decide +kernel⟩

end PrivChat.Auth
