import Memorist.Library.Checks
import Memorist.Library.Runs
import Memorist.Library.Table
import Memorist.Openwebui.ContextMessages

/-!
The signed actor of a request (`memorist-core/src/memcore/security/actor.py`).

* `verifyActorAssertion`, `consumeNonce`: the checks of an assertion, and its one use;
* `authenticateRequest`, `dispatch`: the requests that the middleware lets go on;
* `replayed_within`: when an assertion is accepted again.
-/

namespace Memorist.Security

open Checks Chat

/-- The settings of the actors (`config.py`). -/
structure ActorSettings where
  actorAssertionSecret : Option Text
  actorServiceToken : Option Text
  actorAssertionIssuer : Text := "openwebui-backend".toList
  actorAssertionAudience : Text := "memorist-core".toList
  actorAssertionMaxTtlSeconds : ℤ := 60
  allowLegacyActorHeadersForTests : Bool := false

/-- `AuthenticatedMemoristActor`. -/
structure Actor where
  (userUuid workspaceUuid issuer audience purpose nonce : Text)

/-- A request, with the headers that are read; a header may be missing. -/
structure ActorRequest where
  (method path : Text)
  (userId workspaceId serviceToken actorAssertion : Option Text := none)

/-- A response of the middleware, or an exception that it does not catch. -/
inductive Refusal
  | http (status : ℕ) (detail : Text)
  | crash

/-- `HTTPException(status_code=status, detail=detail)`. -/
def refuse (status : ℕ) (detail : String) : Refusal := .http status detail.toList

/-- What the checks use: `str`, the signature of a text under a secret as `_b64` writes it, the
claims that a text encodes if it does, and `int`, which may raise. -/
structure Host (F : Type) where
  unicode : UnicodeData
  floats : Floats F
  sign : Text → Text → Text
  decode : Text → Option (Json F)
  int : Json F → Option ℤ

/-- `PROTECTED_PATHS`. -/
def protectedPaths : List String :=
  ["/memcore/memory-control", "/memcore/retrieval/", "/memcore/attachments/",
    "/memcore/preflight", "/memcore/assistant-response/completed",
    "/memcore/openwebui/session/resolve", "/memcore/openwebui/messages/capture",
    "/memcore/openwebui/outcomes", "/memcore/openwebui/sessions/", "/memcore/openwebui/status"]

/-- The claims that an assertion must have. -/
def requiredClaims : List String :=
  ["sub", "workspace_uuid", "iss", "aud", "iat", "exp", "purpose", "nonce"]

/-- `hmac.compare_digest`, which takes text in ASCII only. -/
def compareDigest (a b : Text) : Except Refusal Bool :=
  if a.all isAscii && b.all isAscii then .ok (a = b) else .error .crash

section

variable {F : Type} (host : Host F)

/-- The claims of an assertion that its signature vouches for. -/
def signedClaims (secret token : Text) : Except Refusal (Json F) := do
  let invalid := refuse 401 "invalid actor assertion"
  require ('.' ∈ token) invalid
  let encoded := token.takeWhile (· ≠ '.')
  let suppliedSignature := (token.dropWhile (· ≠ '.')).tail
  require (← compareDigest suppliedSignature (host.sign secret encoded)) invalid
  (host.decode encoded).elim (.error invalid) .ok

/-- A value that a set may hold. -/
def hashable : Json F → Bool
  | .arr _ | .obj _ => false
  | _ => true

/-- The members of claims that have the required names; claims that are no dictionary are refused,
or raise when a set is made of them or when a member is read. -/
def memberClaims : Json F → Except Refusal (Mapping F)
  | .obj claims => do
      require (∀ name ∈ requiredClaims, (Dict.get? claims name.toList).isSome)
        (refuse 401 "actor assertion claims incomplete")
      return claims
  | .str _ => .error (refuse 401 "actor assertion claims incomplete")
  | .arr items =>
      if items.all hashable && requiredClaims.any fun name => !items.any (isText name.toList) then
        .error (refuse 401 "actor assertion claims incomplete")
      else .error .crash
  | _ => .error .crash

/-- `int(claims[name])`. -/
def intClaim (claims : Mapping F) (name : String) : Except Refusal ℤ :=
  (host.int (Mapping.get claims name)).elim (.error .crash) .ok

/-- `str(claims[name])`. -/
def strClaim (claims : Mapping F) (name : String) : Text :=
  strValue host.unicode host.floats (Mapping.get claims name)

variable [Zero F] [DecidableEq F] (settings : ActorSettings)

/-- `verify_actor_assertion`. -/
def verifyActorAssertion (token purpose : Text) (now : ℤ) : Except Refusal Actor := do
  let secret := settings.actorAssertionSecret.getD []
  require (secret ≠ []) (refuse 503 "actor assertion verifier is not configured")
  let claims ← signedClaims host secret token >>= memberClaims
  require (isText settings.actorAssertionIssuer (Mapping.get claims "iss"))
    (refuse 401 "actor assertion issuer rejected")
  require (isText settings.actorAssertionAudience (Mapping.get claims "aud"))
    (refuse 401 "actor assertion audience rejected")
  require (isText purpose (Mapping.get claims "purpose"))
    (refuse 403 "actor assertion scope rejected")
  let iat ← intClaim host claims "iat"
  require (iat ≤ now + 5) (refuse 401 "actor assertion expired")
  let exp ← intClaim host claims "exp"
  require (now ≤ exp) (refuse 401 "actor assertion expired")
  require (exp - iat ≤ settings.actorAssertionMaxTtlSeconds)
    (refuse 401 "actor assertion lifetime rejected")
  require (∀ name ∈ ["sub", "workspace_uuid", "nonce"], truthyValue (Mapping.get claims name))
    (refuse 401 "actor assertion identity incomplete")
  return ⟨strClaim host claims "sub", strClaim host claims "workspace_uuid",
    strClaim host claims "iss", strClaim host claims "aud", strClaim host claims "purpose",
    strClaim host claims "nonce"⟩

/-- A row of `memorist_actor_assertion_nonces`. -/
structure NonceRow where
  (nonce userUuid workspaceUuid purpose : Text)
  expiresAt : ℤ

/-- `memorist_actor_assertion_nonces`. -/
abbrev Nonces : Type := Table NonceRow Text NonceRow.nonce

/-- What the clock shows when an assertion is verified, when the nonces are swept, and when its own
is kept. -/
structure Times where
  (verified swept kept : ℤ)

/-- `_consume_nonce`: nothing is committed when the nonce is there. -/
def consumeNonce (times : Times) (actor : Actor) (nonces : Nonces) : Except Refusal Nonces :=
  (nonces.deleteWhere fun row => row.expiresAt < times.swept).insertUnique
    (refuse 409 "actor assertion replay rejected") []
    ⟨actor.nonce, actor.userUuid, actor.workspaceUuid, actor.purpose,
      times.kept + settings.actorAssertionMaxTtlSeconds⟩

/-- `authenticate_request`. -/
def authenticateRequest (times : Times) (request : ActorRequest) (nonces : Nonces) :
    Except Refusal (Actor × Nonces) := do
  let user := request.userId.getD []
  let workspace := request.workspaceId.getD []
  if settings.allowLegacyActorHeadersForTests ∧ user ≠ [] ∧ workspace ≠ [] then
    return (⟨user, workspace, "test-only".toList, "memorist-core".toList, "test".toList,
      "test-only".toList⟩, nonces)
  else
    let service := request.serviceToken.getD []
    let serviceToken := settings.actorServiceToken.getD []
    require (serviceToken ≠ [] ∧ service ≠ []) (refuse 401 "Memorist service credential required")
    require (← compareDigest service serviceToken)
      (refuse 401 "invalid Memorist service credential")
    let assertion := request.actorAssertion.getD []
    require (assertion ≠ [] ∧ settings.actorAssertionSecret.getD [] ≠ [])
      (refuse 401 "signed actor assertion required")
    let actor ← verifyActorAssertion host settings assertion
      (request.method ++ ':' :: request.path) times.verified
    let nonces ← consumeNonce settings times actor nonces
    return (actor, nonces)

/-- `MemoristActorMiddleware.dispatch`: the actor that the request goes on with, if it has one. -/
def dispatch (times : Times) (request : ActorRequest) (nonces : Nonces) :
    Except Refusal (Option Actor) × Nonces :=
  if !protectedPaths.any (fun path => path.toList.isPrefixOf request.path) ||
      settings.allowLegacyActorHeadersForTests && request.userId.getD [] = [] then
    (.ok none, nonces)
  else
    match authenticateRequest host settings times request nonces with
    | .ok (actor, nonces) => (.ok (some actor), nonces)
    | .error refusal => (.error refusal, nonces)

/-! ### Assertions that are sent again -/

/-- A request, the times of its checks, and its answer. -/
structure Call where
  times : Times
  request : ActorRequest
  answer : Except Refusal (Option Actor)

/-- A request is answered. -/
def CallStep (nonces : Nonces) (call : Call) (nonces' : Nonces) : Prop :=
  dispatch host settings call.times call.request nonces = (call.answer, nonces')

variable {host settings} {nonces nonces' : Nonces}

/-- A request leaves the nonces, and goes on without an actor if at all; or its actor comes from an
assertion whose nonce is kept. -/
lemma CallStep.cases {call : Call} (h : CallStep host settings nonces call nonces')
    (hlegacy : settings.allowLegacyActorHeadersForTests = false) :
    (nonces' = nonces ∧ ∀ actor, call.answer ≠ .ok (some actor)) ∨
      ∃ actor, call.answer = .ok (some actor) ∧
        verifyActorAssertion host settings (call.request.actorAssertion.getD [])
          (call.request.method ++ ':' :: call.request.path) call.times.verified = .ok actor ∧
        consumeNonce settings call.times actor nonces = .ok nonces' := by
  rw [CallStep, dispatch] at h
  split_ifs at h
  · rw [Prod.mk.injEq] at h
    exact .inl ⟨h.2.symm, fun actor => by simp [← h.1]⟩
  · cases hauth : authenticateRequest host settings call.times call.request nonces with
    | error refusal =>
        rw [hauth, Prod.mk.injEq] at h
        exact .inl ⟨h.2.symm, fun actor => by simp [← h.1]⟩
    | ok result =>
        rw [hauth, Prod.mk.injEq] at h
        rw [authenticateRequest, if_neg (by simp [hlegacy])] at hauth
        obtain ⟨-, hauth⟩ := check_bind_eq_ok.mp hauth
        obtain ⟨_, -, hauth⟩ := bind_eq_ok.mp hauth
        obtain ⟨-, hauth⟩ := check_bind_eq_ok.mp hauth
        obtain ⟨-, hauth⟩ := check_bind_eq_ok.mp hauth
        obtain ⟨actor, hverify, hauth⟩ := bind_eq_ok.mp hauth
        obtain ⟨kept, hconsume, hauth⟩ := bind_eq_ok.mp hauth
        obtain rfl := pure_eq_ok.mp hauth
        exact .inr ⟨actor, h.1.symm, hverify, h.2 ▸ hconsume⟩

/-- What an assertion that is verified says of its time, and the nonce that is kept for it. -/
lemma exists_times {secret token purpose : Text} {now : ℤ} {actor : Actor}
    (hsecret : settings.actorAssertionSecret.getD [] = secret)
    (h : verifyActorAssertion host settings token purpose now = .ok actor) :
    ∃ claims iat exp, (signedClaims host secret token >>= memberClaims) = .ok claims ∧
      intClaim host claims "iat" = .ok iat ∧ intClaim host claims "exp" = .ok exp ∧
      iat ≤ now + 5 ∧ now ≤ exp ∧ exp - iat ≤ settings.actorAssertionMaxTtlSeconds ∧
      actor.nonce = strClaim host claims "nonce" := by
  obtain ⟨-, h⟩ := check_bind_eq_ok.mp h
  obtain ⟨claims, hclaims, h⟩ := bind_eq_ok.mp h
  obtain ⟨-, h⟩ := check_bind_eq_ok.mp h
  obtain ⟨-, h⟩ := check_bind_eq_ok.mp h
  obtain ⟨-, h⟩ := check_bind_eq_ok.mp h
  obtain ⟨iat, hiat, h⟩ := bind_eq_ok.mp h
  obtain ⟨hbegun, h⟩ := check_bind_eq_ok.mp h
  obtain ⟨exp, hexp, h⟩ := bind_eq_ok.mp h
  obtain ⟨hend, h⟩ := check_bind_eq_ok.mp h
  obtain ⟨hlifetime, h⟩ := check_bind_eq_ok.mp h
  obtain ⟨-, h⟩ := check_bind_eq_ok.mp h
  obtain rfl := pure_eq_ok.mp h
  exact ⟨claims, iat, exp, hsecret ▸ hclaims, hiat, hexp, require_eq_ok.mp hbegun,
    require_eq_ok.mp hend, require_eq_ok.mp hlifetime, rfl⟩

/-- A nonce stays until a request that is let through with an actor sweeps it. -/
lemma CallStep.keeps {call : Call} {row : NonceRow} (h : CallStep host settings nonces call nonces')
    (hlegacy : settings.allowLegacyActorHeadersForTests = false)
    (hrow : row ∈ nonces.rows)
    (hsweep : ∀ actor, call.answer = .ok (some actor) → call.times.swept ≤ row.expiresAt) :
    row ∈ nonces'.rows := by
  obtain ⟨rfl, -⟩ | ⟨actor, hanswer, -, hconsume⟩ := h.cases hlegacy
  · exact hrow
  · rw [Table.rows_insertUnique hconsume]
    refine List.mem_append_left _ (List.mem_filter.mpr ⟨hrow, ?_⟩)
    simpa using hsweep actor hanswer

/-- **An assertion that is accepted again is accepted after a sweep that its first nonce is too old
for, by a request that is let through with an actor, and while its lifetime and the five seconds that
it may be ahead have not passed.** -/
theorem replayed_within {before between : List Call} {first second : Call} {actor actor' : Actor}
    (hlegacy : settings.allowLegacyActorHeadersForTests = false)
    (hrun : Runs (CallStep host settings) nonces (before ++ first :: (between ++ [second])) nonces')
    (hfirst : first.answer = .ok (some actor)) (hsecond : second.answer = .ok (some actor'))
    (hsame : second.request.actorAssertion = first.request.actorAssertion) :
    (∃ call ∈ between ++ [second], (∃ actor, call.answer = .ok (some actor)) ∧
        first.times.kept + settings.actorAssertionMaxTtlSeconds < call.times.swept) ∧
      second.times.verified ≤ first.times.verified + settings.actorAssertionMaxTtlSeconds + 5 := by
  obtain ⟨atFirst, -, hrun⟩ := hrun.exists_mid
  obtain ⟨kept, hfirstStep, hrun⟩ := hrun.of_cons
  obtain ⟨atSecond, hbetween, hsecondStep⟩ := hrun.exists_mid
  obtain ⟨-, hnone⟩ | ⟨actor, -, hverify, hconsume⟩ := hfirstStep.cases hlegacy
  · exact absurd hfirst (hnone _)
  obtain ⟨-, hnone⟩ | ⟨actor', -, hverify', hconsume'⟩ := hsecondStep.of_singleton.cases hlegacy
  · exact absurd hsecond (hnone _)
  obtain ⟨claims, iat, exp, hclaims, hiat, hexp, hbegun, -, hlifetime, hnonce⟩ :=
    exists_times rfl hverify
  obtain ⟨claims', iat', exp', hclaims', hiat', hexp', -, hend, -, hnonce'⟩ :=
    exists_times rfl hverify'
  rw [hsame, hclaims, Except.ok.injEq] at hclaims'
  subst hclaims'
  rw [hexp, Except.ok.injEq] at hexp'
  subst hexp'
  refine ⟨?_, by omega⟩
  by_contra! hold
  set row : NonceRow := ⟨actor.nonce, actor.userUuid, actor.workspaceUuid, actor.purpose,
    first.times.kept + settings.actorAssertionMaxTtlSeconds⟩ with hrow
  have hkept : row ∈ kept.rows := by
    rw [Table.rows_insertUnique hconsume]
    exact List.mem_append_right _ (List.mem_singleton_self _)
  have hstill : row ∈ atSecond.rows := hbetween.invariant_of_mem (fun hmem hrow hstep =>
    hstep.keeps hlegacy hrow fun actor hanswer =>
      hold _ (List.mem_append_left _ hmem) ⟨actor, hanswer⟩) hkept
  -- the nonce is there when it is to be kept again
  have hfree := (Table.insertUnique_eq_ok.mp hconsume').1
  rw [Table.get?_eq_none] at hfree
  refine hfree (List.mem_map.mpr ⟨row, List.mem_filter.mpr ⟨hstill, ?_⟩, hnonce.trans hnonce'.symm⟩)
  simpa using hold second (by simp) ⟨_, hsecond⟩

end

/-- The claims of an assertion that is five seconds ahead. -/
def aheadClaims : Mapping ℕ :=
  [("aud".toList, .str "a".toList), ("exp".toList, .int 65), ("iat".toList, .int 5),
    ("iss".toList, .str "i".toList), ("nonce".toList, .str "n".toList),
    ("purpose".toList, .str "GET:/memcore/preflight".toList), ("sub".toList, .str "u".toList),
    ("workspace_uuid".toList, .str "w".toList)]

/-- A host that knows these claims by a letter, which it signs with itself. -/
def aheadHost : Host ℕ where
  unicode := basicLatin
  floats := tenths
  sign _ text := text
  decode text := if text = ['c'] then some (.obj aheadClaims) else none
  int
    | .int i => some i
    | _ => none

/-- The settings of a core that takes these claims. -/
def aheadSettings : ActorSettings where
  actorAssertionSecret := some ['k']
  actorServiceToken := some ['t']
  actorAssertionIssuer := ['i']
  actorAssertionAudience := ['a']

/-- The assertion is sent with a request. -/
def sendAhead (time : ℤ) (nonces : Nonces) : Call × Nonces :=
  let request : ActorRequest :=
    { method := "GET".toList, path := "/memcore/preflight".toList, serviceToken := some ['t'],
      actorAssertion := some ['c', '.', 'c'] }
  let result := dispatch aheadHost aheadSettings ⟨time, time, time⟩ request nonces
  (⟨⟨time, time, time⟩, request, result.1⟩, result.2)

/-- The assertion is accepted at first and after a minute. -/
theorem replayed_within_minute :
    let first := sendAhead 0 .empty
    let second := sendAhead 61 first.2
    (∃ call ∈ [second.1], (∃ actor, call.answer = .ok (some actor)) ∧
        first.1.times.kept + 60 < call.times.swept) ∧
      second.1.times.verified ≤ first.1.times.verified + 60 + 5 := by
  intro first second
  have hfirst : CallStep aheadHost aheadSettings .empty first.1 first.2 := rfl
  have hsecond : CallStep aheadHost aheadSettings first.2 second.1 second.2 := rfl
  have hrun : Runs (CallStep aheadHost aheadSettings) .empty
      ([] ++ first.1 :: ([] ++ [second.1])) second.2 := (Runs.refl.tail hfirst).tail hsecond
  exact replayed_within rfl hrun rfl rfl rfl

end Memorist.Security
