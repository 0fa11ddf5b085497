import Mathlib.Data.List.Induction
import MailPanel.McpConsent

/-
The resource that an authorization was asked for, followed from the authorization endpoint,
which parses it, to the token endpoint, which compares it as text.
-/

namespace MailPanel

namespace Mcp

open RowTable

/-- The transaction that a task holds a copy of. -/
def Held.transaction : Held → Option AuthorizationRequestRow
  | .login request => some request
  | .decide wait => some wait.request
  | .nothing | .issue _ _ => none

namespace Server

variable {env : Env} {mandate : Mandate} {s t : Server}

theorem enrollmentProblem_connection {enrollment : EnrollmentRow}
    {request : AuthorizationRequestRow}
    (hproblem : s.enrollmentProblem enrollment request = none) {connectionId : Id}
    (hconnection : request.connectionId = some connectionId) :
    connectionId = enrollment.connectionId := by
  simp only [enrollmentProblem] at hproblem
  split at hproblem
  · cases hproblem
  split at hproblem
  · cases hproblem
  split at hproblem
  · cases hproblem
  split at hproblem
  · cases hproblem
  split at hproblem
  · cases hproblem
  split at hproblem
  · cases hproblem
  rename_i hother
  by_contra hne
  apply hother
  rw [hconnection]
  simpa using hne

/-- A grant on record after evolving was on record before. -/
theorem Evolves.grantIssued_mem (h : s.Evolves mandate t) {grant : GrantRow}
    {code : AuthorizationCodeRow} {codeVerifier : String}
    (hgrant : .grantIssued grant code codeVerifier ∈ t.history) :
    .grantIssued grant code codeVerifier ∈ s.history := by
  obtain ⟨events, hungranting⟩ := ungranting_evolves h
  exact hungranting.grant_mem hgrant

/- A decision is received -/

/-- The resource of a code is built from the public base URL that the service had when the
decision came in. -/
theorem beginDecide_issuer {form : AuthorizeForm} {cookieTxn : Option Id} {wait : DecideWait}
    (hbegin : s.beginDecide env form cookieTxn = .ok wait) :
    s.settings.publicBaseUrl = some wait.issuer := by
  rw [beginDecide] at hbegin
  cases hissuer : s.issuer env with
  | none =>
      rw [hissuer] at hbegin
      cases hbegin
  | some issuer =>
      have hsettings : s.settings.publicBaseUrl = some issuer := by
        rw [Server.issuer] at hissuer
        split at hissuer
        · rename_i hurl
          split at hissuer
          · cases hissuer
          · rw [hurl, Option.some.inj hissuer]
        · cases hissuer
      simp only [hissuer] at hbegin
      split at hbegin
      · cases hbegin
      · split at hbegin
        · rw [← Except.ok.inj hbegin]
          exact hsettings
        · cases hbegin

theorem createConnectionAndIssue_held {connectionExpiryDays : Option Nat}
    {request : CreateRequest} {binding : BindingRow} :
    ∀ task ∈ (s.createConnectionAndIssue env connectionExpiryDays request binding).2,
      ∃ pending, task.held = .issue .create pending := by
  intro task htask
  simp only [createConnectionAndIssue, insertConnection] at htask
  by_cases hhealth : s.credentialHealth ((s.findBinding binding.id).getD binding) ≠ .healthy
  · simp [hhealth] at htask
  · simp only [hhealth, ↓reduceIte, List.mem_singleton] at htask
    rw [htask]
    exact ⟨_, rfl⟩

/-- A task that waits with a decision has been begun by the request for that decision. -/
theorem receive_decide {request : Request} {task : Task}
    (htask : task ∈ (s.receive env request).2) {wait : DecideWait}
    (hheld : task.held = .decide wait) :
    ∃ form cookieTxn, request = .decide form cookieTxn ∧
      s.beginDecide env form cookieTxn = .ok wait := by
  cases request with
  | decide form cookieTxn =>
      simp only [receive] at htask
      split at htask
      · cases htask
      · rename_i begun hbegin
        rw [List.mem_singleton.mp htask] at hheld
        rw [← Held.decide.inj hheld]
        exact ⟨form, cookieTxn, rfl, hbegin⟩
  | start query =>
      simp only [receive] at htask
      split at htask
      · cases htask
      · rw [List.mem_singleton.mp htask] at hheld
        cases hheld
  | login form cookieTxn ip =>
      simp only [receive] at htask
      split at htask
      · cases htask
      · rw [List.mem_singleton.mp htask] at hheld
        cases hheld
  | token credentials form =>
      simp only [receive] at htask
      split at htask
      · rw [List.mem_singleton.mp htask] at hheld
        cases hheld
      · cases htask
  | revokeToken credentials token hint =>
      simp only [receive] at htask
      split at htask
      · rw [List.mem_singleton.mp htask] at hheld
        cases hheld
      · cases htask
  | credentialRejected bindingId =>
      simp only [receive] at htask
      split at htask <;> cases htask
  | create request =>
      simp only [receive] at htask
      split at htask
      · cases htask
      · split at htask
        · obtain ⟨pending, hissue⟩ := createConnectionAndIssue_held task htask
          rw [hissue] at hheld
          cases hheld
        · split at htask
          · cases htask
          · rw [List.mem_singleton.mp htask] at hheld
            cases hheld
  | updateCredentials id password fingerprint =>
      simp only [receive] at htask
      split at htask
      · cases htask
      · split at htask
        · cases htask
        · rw [List.mem_singleton.mp htask] at hheld
          cases hheld
  | reissue id =>
      simp only [receive] at htask
      split at htask
      · cases htask
      · rw [List.mem_singleton.mp htask] at hheld
        cases hheld
  | rotate id =>
      simp only [receive] at htask
      split at htask
      · cases htask
      · rw [List.mem_singleton.mp htask] at hheld
        cases hheld
  | test id =>
      simp only [receive] at htask
      split at htask
      · cases htask
      · split at htask
        · rw [List.mem_singleton.mp htask] at hheld
          cases hheld
        · cases htask
  | register _ | bearer _ _ | update _ _ | disable _ _ | enable _ | revoke _ _ | delete _
  | revokeGrant _ _ | mailboxEvent _ _ | reconcile _ | updateSettings _ => cases htask

/-- No wait turns into that of a decision as it ends, so a waiting decision was put there by its
own request. -/
theorem proceed_decide {task new : Task} {reply : Reply} {server : Server} {next : List Task}
    (hproceed : s.proceed env task reply = some (server, next)) (hnew : new ∈ next)
    {wait : DecideWait} (hheld : new.held = .decide wait) : task.held = .decide wait := by
  unfold proceed at hproceed
  split at hproceed
  · rw [← (Prod.mk.inj (Option.some.inj hproceed)).2] at hnew
    cases hnew
  · rw [← (Prod.mk.inj (Option.some.inj hproceed)).2, List.mem_singleton] at hnew
    rw [hnew] at hheld
    exact hheld
  · rename_i resolved continuation
    have hnext := congrArg Prod.snd (Option.some.inj hproceed)
    dsimp only at hnext
    rw [← hnext] at hnew
    cases continuation with
    | start wait => cases hnew
    | login wait =>
        simp only [continueWith] at hnew
        split at hnew
        · cases hnew
        · rw [List.mem_singleton.mp hnew] at hheld
          cases hheld
    | decide wait => cases hnew
    | token presented form =>
        simp only [continueWith] at hnew
        split at hnew <;> cases hnew
    | revokeToken presented token hint =>
        simp only [continueWith] at hnew
        split at hnew <;> cases hnew
  · rw [← (Prod.mk.inj (Option.some.inj hproceed)).2] at hnew
    cases hnew
  · split at hproceed
    · rw [← (Prod.mk.inj (Option.some.inj hproceed)).2] at hnew
      cases hnew
    · have hnext := congrArg Prod.snd (Option.some.inj hproceed)
      dsimp only at hnext
      rw [← hnext] at hnew
      obtain ⟨pending, hissue⟩ := createConnectionAndIssue_held new hnew
      rw [hissue] at hheld
      cases hheld
  · rw [← (Prod.mk.inj (Option.some.inj hproceed)).2] at hnew
    cases hnew
  · rw [← (Prod.mk.inj (Option.some.inj hproceed)).2] at hnew
    cases hnew
  · rw [← (Prod.mk.inj (Option.some.inj hproceed)).2] at hnew
    cases hnew
  · cases hproceed

/- A transaction starts -/

theorem startConnection_named {wait : StartWait} {resource : String}
    {connection : ConnectionRow} (hresource : param wait.query "resource" = some resource)
    (hnamed : (connectionIdFromResource env wait.issuer resource).bind
      s.findConnectionByText = some connection) {started : Option ConnectionRow}
    (hstart : s.startConnection env wait.issuer wait.query = .ok started) :
    started = some connection := by
  rw [startConnection, hresource] at hstart
  simp only [hnamed] at hstart
  split at hstart
  · cases hstart
  · exact (Except.ok.inj hstart).symm

/-- The sign-in page goes out with a transaction for the connection that the resource
names. -/
theorem finishStart_login {wait : StartWait} {client : OAuthClientRow} {resource : String}
    {connection : ConnectionRow} {txn csrf : Id} {scopes : Option (List McpScope)}
    {expiresAt : Time} (hresource : param wait.query "resource" = some resource)
    (hnamed : (connectionIdFromResource env wait.issuer resource).bind
      s.findConnectionByText = some connection)
    (hlogin : (s.finishStart env wait (.ok client)).1 =
      .login txn csrf true scopes expiresAt none none) :
    ∃ redirectUri, (s.finishStart env wait (.ok client)).2 =
      { s.createAuthorizationRequest (s.requestRow wait client redirectUri (some connection))
        with nextId := s.nextId + 2 } := by
  simp only [finishStart] at hlogin ⊢
  split at hlogin
  · cases hlogin
  · rename_i redirectUri hredirect
    split at hlogin
    · cases hlogin
    · rename_i hrefusal
      split at hlogin
      · cases hlogin
      · rename_i started hstart
        have hstarted := startConnection_named hresource hnamed hstart
        split at hlogin
        · cases hlogin
        · rename_i hscopes
          refine ⟨redirectUri, ?_⟩
          rw [if_neg hscopes, hstarted]

/- The token endpoint -/

/-- The token endpoint answers that the resource is not the right one. -/
def TargetRefused (result : Except OAuthError TokenResponse) : Prop :=
  ∃ error, result = .error error ∧ error.error = "invalid_target"

theorem not_targetRefused_ok (response : TokenResponse) : ¬ TargetRefused (.ok response) := by
  rintro ⟨error, heq, -⟩
  cases heq

theorem targetRefused_error {error : OAuthError} :
    TargetRefused (.error error) ↔ error.error = "invalid_target" := by
  constructor
  · rintro ⟨other, heq, htext⟩
    rw [Except.error.inj heq]
    exact htext
  · intro htext
    exact ⟨error, rfl, htext⟩

/-- The code's own client redeems it as it should, whatever resource it names. What is left open
is exactly the comparison of resources. -/
structure PresentsCode (env : Env) (s : Server) (code : AuthorizationCodeRow)
    (client : OAuthClientRow) (form : TokenForm) : Prop where
  grantType : form.grantType = some "authorization_code"
  mayRedeem : "authorization_code" ∈ client.grantTypes
  found : ∃ codeHash, form.code = some codeHash ∧ s.findCodeByHash codeHash = some code
  unredeemed : code.redeemedAt = none
  sameClient : code.clientId = client.clientId
  unexpired : s.now < code.expiresAt
  redirectUri : form.redirectUri = some code.redirectUri
  verifier : ∃ codeVerifier, form.codeVerifier = some codeVerifier ∧
    verifyPkceS256 env codeVerifier code.codeChallenge = true

/-- The grant's own client presents a live refresh token, whatever resource it names. What is
left open is exactly the comparison of resources. -/
structure PresentsToken (s : Server) (token : RefreshTokenRow) (grant : GrantRow)
    (client : OAuthClientRow) (form : TokenForm) : Prop where
  grantType : form.grantType = some "refresh_token"
  mayRefresh : "refresh_token" ∈ client.grantTypes
  found : ∃ tokenHash, form.refreshToken = some tokenHash ∧
    s.findRefreshTokenByHash tokenHash = some token ∧ s.findGrant token.grantId = some grant
  sameClient : grant.clientId = client.clientId
  unused : token.usedAt = none
  unrevoked : token.revokedAt = none ∧ grant.revokedAt = none
  unexpired : s.now < token.expiresAt

theorem connectionUnusable_error {connectionId : Id} {error : OAuthError}
    (hunusable : s.connectionUnusable connectionId = some error) :
    error.error ≠ "invalid_target" := by
  rw [connectionUnusable] at hunusable
  split at hunusable
  · rw [← Option.some.inj hunusable]
    decide
  · split at hunusable
    · rw [← Option.some.inj hunusable]
      decide
    · split at hunusable
      · rw [← Option.some.inj hunusable]
        decide
      · simp only at hunusable
        split at hunusable
        · rw [← Option.some.inj hunusable]
          exact (by decide : "invalid_grant" ≠ "invalid_target")
        · cases hunusable

theorem exchangeConsumed_target (client : OAuthClientRow) (code : AuthorizationCodeRow)
    (codeVerifier : String) :
    ¬ TargetRefused (s.exchangeConsumed client code codeVerifier).1 := by
  rw [exchangeConsumed]
  split
  · rename_i hunusable
    rw [targetRefused_error]
    exact connectionUnusable_error hunusable
  · split
    · rw [targetRefused_error]
      exact (by decide : "invalid_grant" ≠ "invalid_target")
    · dsimp only
      split
      · rw [targetRefused_error]
        exact (by decide : "invalid_scope" ≠ "invalid_target")
      · exact not_targetRefused_ok _

/-- The last of the checks on a code is that of its resource. -/
theorem PresentsCode.exchangeRefusal {code : AuthorizationCodeRow} {client : OAuthClientRow}
    {form : TokenForm} (hpresents : s.PresentsCode env code client form) {resource : String}
    (hresource : form.resource = some resource) {codeVerifier : String}
    (hverifies : verifyPkceS256 env codeVerifier code.codeChallenge = true) :
    s.exchangeRefusal env
        ⟨client, form.code, form.redirectUri, form.codeVerifier, form.resource⟩ codeVerifier
        code =
      if resource ≠ code.resource ∧ stripTrailingSlash resource ≠ code.resource then
        some ⟨"invalid_target", "The resource does not match the authorization.", 400⟩
      else none := by
  have hunexpired : ¬ code.expiresAt ≤ s.now := Nat.not_le.mpr hpresents.unexpired
  simp [Server.exchangeRefusal, hpresents.sameClient, hunexpired, hpresents.redirectUri,
    hverifies, hresource]

theorem PresentsCode.answer {code : AuthorizationCodeRow} {client : OAuthClientRow}
    {form : TokenForm} (hpresents : s.PresentsCode env code client form) {resource : String}
    (hresource : form.resource = some resource) :
    TargetRefused (s.answerToken env client form).1 ↔
      resource ≠ code.resource ∧ stripTrailingSlash resource ≠ code.resource := by
  obtain ⟨codeHash, hcode, hfind⟩ := hpresents.found
  obtain ⟨codeVerifier, hverifier, hverifies⟩ := hpresents.verifier
  have hrefusal := hpresents.exchangeRefusal hresource hverifies
  have hanswer : s.answerToken env client form =
      s.exchangeCode env
        ⟨client, form.code, form.redirectUri, form.codeVerifier, form.resource⟩ := by
    simp only [answerToken, hpresents.grantType]
  rw [hanswer, exchangeCode]
  simp only [hcode, hverifier, hfind, hpresents.mayRedeem, hpresents.unredeemed,
    not_true_eq_false, ne_eq, ↓reduceIte]
  rw [hcode, hverifier] at hrefusal
  rw [hrefusal]
  by_cases hspelled : resource ≠ code.resource ∧ stripTrailingSlash resource ≠ code.resource
  · rw [if_pos hspelled]
    exact iff_of_true (targetRefused_error.mpr rfl) hspelled
  · rw [if_neg hspelled]
    refine iff_of_false ?_ hspelled
    dsimp only
    split
    · rw [targetRefused_error]
      exact (by decide : "invalid_grant" ≠ "invalid_target")
    · split
      · rw [targetRefused_error]
        exact (by decide : "invalid_grant" ≠ "invalid_target")
      · exact exchangeConsumed_target client code codeVerifier

theorem refreshGranted_target (token : RefreshTokenRow) (grant : GrantRow)
    (scopes : List McpScope) : ¬ TargetRefused (s.refreshGranted token grant scopes).1 := by
  rw [refreshGranted]
  split
  · rw [targetRefused_error]
    exact (by decide : "invalid_scope" ≠ "invalid_target")
  · split
    · rw [targetRefused_error]
      exact (by decide : "invalid_grant" ≠ "invalid_target")
    · exact not_targetRefused_ok _

theorem refreshScopes_error {scope : Option String} {grant : GrantRow}
    {connection : ConnectionRow} {error : OAuthError}
    (hscopes : refreshScopes scope grant connection = .error error) :
    error.error ≠ "invalid_target" := by
  simp only [refreshScopes] at hscopes
  split at hscopes
  · cases hscopes
  · split at hscopes
    · rw [← Except.error.inj hscopes]
      exact (by decide : "invalid_scope" ≠ "invalid_target")
    · cases hscopes

theorem PresentsToken.answer {token : RefreshTokenRow} {grant : GrantRow}
    {client : OAuthClientRow} {form : TokenForm}
    (hpresents : s.PresentsToken token grant client form) {resource : String}
    (hresource : form.resource = some resource) :
    TargetRefused (s.answerToken env client form).1 ↔
      stripTrailingSlash resource ≠ grant.resource := by
  obtain ⟨tokenHash, htoken, hfind, hgrant⟩ := hpresents.found
  have hanswer : s.answerToken env client form =
      s.refresh ⟨client, form.refreshToken, form.scope, form.resource⟩ := by
    simp only [answerToken, hpresents.grantType, hpresents.mayRefresh, not_true_eq_false,
      ↓reduceIte]
  have hunexpired : ¬ token.expiresAt ≤ s.now := Nat.not_le.mpr hpresents.unexpired
  have hrefusal : s.refreshRefusal ⟨client, form.refreshToken, form.scope, form.resource⟩ token
      grant = if stripTrailingSlash resource ≠ grant.resource then
        some ⟨"invalid_target", "The resource does not match the grant.", 400⟩
      else none := by
    simp [refreshRefusal, hpresents.unrevoked.1, hpresents.unrevoked.2, hunexpired, hresource]
  rw [htoken] at hrefusal
  rw [hanswer, refresh]
  simp only [htoken, hfind, hgrant, hpresents.sameClient, hpresents.unused, not_true_eq_false,
    ne_eq, ↓reduceIte]
  rw [hrefusal]
  by_cases hspelled : stripTrailingSlash resource ≠ grant.resource
  · rw [if_pos hspelled]
    exact iff_of_true (targetRefused_error.mpr rfl) hspelled
  · rw [if_neg hspelled]
    refine iff_of_false ?_ hspelled
    dsimp only
    split
    · rw [targetRefused_error]
      exact (by decide : "invalid_grant" ≠ "invalid_target")
    · split
      · rename_i hunusable
        rw [targetRefused_error]
        exact connectionUnusable_error hunusable
      · split
        · rename_i hscopes
          rw [targetRefused_error]
          exact refreshScopes_error hscopes
        · exact refreshGranted_target token grant _

/-- No canonical resource ends in a slash. -/
theorem stripTrailingSlash_resourceFor (issuer : String) (connectionId : Id) :
    stripTrailingSlash (resourceFor issuer connectionId) = resourceFor issuer connectionId := by
  have htext : (resourceFor issuer connectionId).toList =
      (issuer.toList ++ "/mcp/".toList ++ 'c' :: List.replicate
        (26 - (Nat.toDigits 10 connectionId).length) '0') ++ Nat.toDigits 10 connectionId := by
    simp [resourceFor, connectionIdText, IsoTime.padded]
  have hlast : (resourceFor issuer connectionId).toList.getLast? ≠ some '/' := by
    intro hslash
    rw [htext, List.getLast?_append_of_ne_nil _ Nat.toDigits_ne_nil] at hslash
    have hdigit := Nat.isDigit_of_mem_toDigits (by decide) (by decide)
      (List.mem_of_getLast? hslash)
    exact absurd hdigit (by decide)
  rw [stripTrailingSlash, if_neg hlast]

end Server

namespace System

variable {env : Env} {system next : System} {label : Label}

/- What a step does to transactions, codes and grants -/

/-- The transaction names the connection that a held copy of it names, if the copy names
one. -/
def NamesAs (system : System) (row : AuthorizationRequestRow) : Prop :=
  ∃ task ∈ system.tasks, ∃ request, task.held.transaction = some request ∧
    request.id = row.id ∧ ∀ connectionId, request.connectionId = some connectionId →
      row.connectionId = some connectionId

theorem Stepped.requests_linked (hsystem : system.Sound)
    (hstep : Stepped env system label next) :
    Continues (fun old row : AuthorizationRequestRow => row.id = old.id ∧
        (row.connectionId = old.connectionId ∨ system.NamesAs row))
      (fun row => system.server.nextId ≤ row.id) system.server.requests
      next.server.requests := by
  have hevolved : ∀ {mandate before server}, Server.Evolves mandate before server →
      before.requests = system.server.requests → system.server.nextId ≤ before.nextId →
        Continues (fun old row : AuthorizationRequestRow => row.id = old.id ∧
            (row.connectionId = old.connectionId ∨ system.NamesAs row))
          (fun row => system.server.nextId ≤ row.id) system.server.requests
          server.requests := by
    intro mandate before server hevolves hsame hle
    rw [← hsame]
    apply hevolves.requests.mono
    · intro old row hgoesOn
      rw [hgoesOn.1]
      exact ⟨rfl, Or.inl rfl⟩
    · exact fun row hnew => Nat.le_trans hle hnew.1.1
  cases hstep with
  | evolved hevolves _ => exact hevolved hevolves rfl (Nat.le_refl _)
  | @signedIn _ wait enrollment connection hheld hproblem hfind =>
      intro row hrow
      rw [Server.showConsent_requests] at hrow
      obtain ⟨old, hold, heq⟩ := exists_of_mem_updateWhere hrow
      refine Or.inl ⟨old, hold, ?_⟩
      rw [heq]
      split
      · rename_i hopen
        obtain ⟨task, htask, hheld, -⟩ := hheld
        have hid : old.id = wait.request.id := by
          simp only [Server.openRequest, Bool.decide_and, Bool.and_eq_true,
            decide_eq_true_eq] at hopen
          exact hopen.1
        refine ⟨rfl, Or.inr ⟨task, htask, wait.request, ?_, hid.symm, ?_⟩⟩
        · rw [hheld]
          rfl
        · intro connectionId hconnection
          rw [Server.enrollmentProblem_connection hproblem hconnection,
            ← (Server.findConnection_mem hfind).2]
      · exact ⟨rfl, Or.inl rfl⟩
  | approved _ _ hevolves _ => exact hevolved hevolves rfl (Nat.le_add_right _ 2)
  | @redeemed _ _ _ _ _ client code codeVerifier scopes =>
      have hevolves : Server.Evolves Mandate.none _
          ((system.server.redeemed code).grantCode client code scopes codeVerifier).2 :=
        Server.evolves_grantCode client code scopes codeVerifier
      exact hevolved hevolves rfl (Nat.le_succ _)
  | @hashed _ operation pending _ htask =>
      obtain ⟨⟨events, hhash⟩, -⟩ := Server.unconsenting_finishHash system.server operation
        pending (hsystem.newUsername _ (List.mem_of_getElem? htask) operation pending rfl)
      exact hevolved (Server.Evolves.refl Mandate.none _) hhash.requests hhash.nextId_le

/-- A new code is drawn as the task of a decision ends, for the connection that the decision is
about and under the base URL that it came in under. -/
def Issues (system : System) (label : Label) (row : AuthorizationCodeRow) : Prop :=
  ∃ index task wait, label = .resume index .done ∧ system.tasks[index]? = some task ∧
    task.held = .decide wait ∧ row.id = system.server.nextId ∧ row.requestId = wait.request.id ∧
      row.resource = resourceFor wait.issuer wait.connectionId

/-- A code stays one of its transaction, for its resource. -/
def CodeLinked (old row : AuthorizationCodeRow) : Prop :=
  row.id = old.id ∧ row.requestId = old.requestId ∧ row.resource = old.resource

theorem CodeLinked.refl (row : AuthorizationCodeRow) : CodeLinked row row := ⟨rfl, rfl, rfl⟩

theorem CodeLinked.trans (first second third : AuthorizationCodeRow)
    (hfirst : CodeLinked first second) (hsecond : CodeLinked second third) :
    CodeLinked first third :=
  ⟨hsecond.1.trans hfirst.1, hsecond.2.1.trans hfirst.2.1, hsecond.2.2.trans hfirst.2.2⟩

theorem Issues.linked (old row : AuthorizationCodeRow) (hissues : system.Issues label old)
    (hlinked : CodeLinked old row) : system.Issues label row := by
  obtain ⟨index, task, wait, hlabel, htask, hheld, hid, hrequest, hresource⟩ := hissues
  exact ⟨index, task, wait, hlabel, htask, hheld, hlinked.1.trans hid,
    hlinked.2.1.trans hrequest, hlinked.2.2.trans hresource⟩

theorem Stepped.codes_linked (hsystem : system.Sound)
    (hstep : Stepped env system label next) :
    Continues CodeLinked (system.Issues label) system.server.codes next.server.codes := by
  have hrefl : Continues CodeLinked (system.Issues label) system.server.codes system.server.codes :=
    Continues.refl CodeLinked.refl _
  have hevolved : ∀ {mandate before server}, Server.Evolves mandate before server →
      Continues CodeLinked (system.Issues label) system.server.codes before.codes →
        Continues CodeLinked (system.Issues label) system.server.codes server.codes := by
    intro mandate before server hevolves hbefore
    apply Continues.trans CodeLinked.trans Issues.linked (fun _ h => h) hbefore
      (hevolves.codes.mono _ fun _ => False.elim)
    intro old row hgoesOn
    rw [hgoesOn.1]
    exact CodeLinked.refl old
  cases hstep with
  | evolved hevolves _ => exact hevolved hevolves hrefl
  | @signedIn _ wait enrollment connection =>
      obtain ⟨requests, history, heq⟩ := Server.showConsent_kept
        (system.server.recordAttempt wait.ip wait.form.username true) wait.request.id
        connection.id enrollment.id (grantedScopes wait.request connection.scopes)
      rw [heq]
      exact hrefl
  | @approved _ _ wait client enrollment connection hheld happroval hevolves =>
      apply hevolved hevolves
      apply Continues.append CodeLinked.refl
      intro row hrow
      obtain ⟨index, task, hlabel, htask, hheld⟩ := hheld
      rw [List.mem_singleton.mp hrow]
      refine ⟨index, task, wait, hlabel, htask, hheld, rfl, rfl, ?_⟩
      rw [← (Server.findConnection_mem happroval.connection_found).2]
      rfl
  | @redeemed _ _ _ _ _ client code codeVerifier scopes =>
      have hredeemed : system.server.Evolves Mandate.none (system.server.redeemed code) :=
        Server.evolves_redeemed code
      have hevolves : Server.Evolves Mandate.none _
          ((system.server.redeemed code).grantCode client code scopes codeVerifier).2 :=
        Server.evolves_grantCode client code scopes codeVerifier
      apply hevolved hevolves
      apply Continues.trans CodeLinked.trans Issues.linked (fun _ h => h)
        (hevolved hredeemed hrefl)
      apply Continues.updateWhere CodeLinked.refl
      exact fun row _ _ => CodeLinked.refl row
  | @hashed _ operation pending _ htask =>
      obtain ⟨-, hcodes, -⟩ := Server.unconsenting_finishHash system.server operation
        pending (hsystem.newUsername _ (List.mem_of_getElem? htask) operation pending rfl)
      rw [hcodes]
      exact hrefl

/-- A grant on record after the step was on record before, or has just been stored for a code
of the tables, with its resource. -/
theorem Stepped.grants_linked (hsystem : system.Sound)
    (hstep : Stepped env system label next) {grant : GrantRow} {code : AuthorizationCodeRow}
    {codeVerifier : String}
    (hgrant : .grantIssued grant code codeVerifier ∈ next.server.history) :
    .grantIssued grant code codeVerifier ∈ system.server.history ∨
      code ∈ system.server.codes ∧ grant.id < next.server.nextId ∧
        ∀ row ∈ next.server.grants, row.id = grant.id → row.resource = code.resource := by
  cases hstep with
  | evolved hevolves _ => exact Or.inl (hevolves.grantIssued_mem hgrant)
  | @signedIn _ wait =>
      have hattempt : system.server.Evolves Mandate.none
          (system.server.recordAttempt wait.ip wait.form.username true) :=
        Server.evolves_recordAttempt _ _ _
      obtain ⟨events, hconsent⟩ := Server.ungranting_showConsent _ _ _ _
      refine Or.inl (hattempt.grantIssued_mem (hconsent.grant_mem ?_))
      exact hgrant
  | approved _ _ hevolves _ =>
      exact Or.inl ((Server.ungranting_issued _).grant_mem (hevolves.grantIssued_mem hgrant))
  | @redeemed _ _ _ _ form client code' codeVerifier' scopes _ _ hredemption =>
      have hredeemed : system.server.Evolves Mandate.none (system.server.redeemed code') :=
        Server.evolves_redeemed code'
      have hevolves : Server.Evolves Mandate.none _
          ((system.server.redeemed code').grantCode client code' scopes codeVerifier').2 :=
        Server.evolves_grantCode client code' scopes codeVerifier'
      rcases List.mem_cons.mp (hevolves.grantIssued_mem hgrant) with heq | hbefore
      · injection heq with hrow hcode
        rw [hrow, hcode]
        refine Or.inr ⟨hredemption.mem, hevolves.nextId_le, ?_⟩
        intro row hrow hid
        rcases hevolves.grants row hrow with ⟨old, hold, hgoesOn⟩ | hfalse
        · rw [hgoesOn.1] at hid ⊢
          rcases List.mem_append.mp hold with hold | hnew
          · have hlt := (hsystem.server.evolves hredeemed).grant_lt old hold
            exact absurd hid (Nat.ne_of_lt hlt)
          · rw [List.mem_singleton.mp hnew]
            rfl
        · exact hfalse.elim
      · exact Or.inl (hredeemed.grantIssued_mem hbefore)
  | @hashed _ operation pending _ htask =>
      rcases Server.finishHash_cases operation pending
          (hsystem.newUsername _ (List.mem_of_getElem? htask) operation pending rfl) with
        heq | ⟨previous, -, -, heq⟩ | ⟨-, heq⟩
      · rw [heq] at hgrant
        exact Or.inl hgrant
      · rw [heq] at hgrant
        obtain ⟨events, hreset⟩ := Server.ungranting_resetEnrollment previous.id _ _
        exact Or.inl (hreset.grant_mem hgrant)
      · rw [heq] at hgrant
        obtain ⟨events, hnoted⟩ := Server.ungranting_noted operation pending.connectionId
        exact Or.inl (hnoted.grant_mem
          ((Server.ungranting_storeEnrollment _ _ _ _).grant_mem hgrant))

/- What every run keeps -/

/-- Nothing points to a transaction that has not been drawn, and decisions are about
transactions that have been signed in to. -/
structure Drawn (system : System) : Prop where
  held : ∀ task ∈ system.tasks, ∀ request, task.held.transaction = some request →
    request.id < system.server.nextId
  decisions : ∀ task ∈ system.tasks, ∀ wait, task.held = .decide wait → wait.SignedIn
  codes : ∀ row ∈ system.server.codes, row.requestId < system.server.nextId
  grants : ∀ grant code codeVerifier,
    .grantIssued grant code codeVerifier ∈ system.server.history →
      code.requestId < system.server.nextId

/-- A task that has just begun holds a transaction of the tables. Later it may be out of date,
and the conditional writes are there for that. -/
theorem begun_transaction {rank : Id → Nat} {s : Server} {task : Task}
    (hbegun : task.Begun rank s) {request : AuthorizationRequestRow}
    (hrequest : task.held.transaction = some request) : request ∈ s.requests := by
  have hheld := hbegun.1
  cases hkind : task.held with
  | nothing =>
      rw [hkind] at hrequest
      cases hrequest
  | issue operation pending =>
      rw [hkind] at hrequest
      cases hrequest
  | login loaded =>
      rw [hkind] at hrequest hheld
      cases hrequest
      exact hheld.mem
  | decide wait =>
      rw [hkind] at hrequest hheld
      cases hrequest
      exact hheld.1.mem

theorem Drawn.stepped (hdrawn : system.Drawn) (hsystem : system.Sound)
    (hstep : Stepped env system label next) : next.Drawn := by
  have hle := (hstep.grants hsystem).1
  have hnext := hsystem.stepped hstep
  refine ⟨?_, ?_, ?_, ?_⟩
  · intro task htask request hrequest
    rcases hstep.tasksGoOn task htask with ⟨old, hold, hsame, -⟩ | hbegun
    · rw [hsame] at hrequest
      exact Nat.lt_of_lt_of_le (hdrawn.held old hold request hrequest) hle
    · exact hnext.server.request_lt request (begun_transaction hbegun hrequest)
  · intro task htask wait hheld
    rcases hstep.tasksGoOn task htask with ⟨old, hold, hsame, -⟩ | hbegun
    · exact hdrawn.decisions old hold wait (hsame.symm.trans hheld)
    · have hbegunHeld := hbegun.1
      rw [hheld] at hbegunHeld
      exact hbegunHeld.2
  · intro row hrow
    rcases hstep.codes_linked hsystem row hrow with ⟨old, hold, hlinked⟩ | hissues
    · rw [hlinked.2.1]
      exact Nat.lt_of_lt_of_le (hdrawn.codes old hold) hle
    · obtain ⟨_, task, wait, -, htask, hheld, -, hrequest, -⟩ := hissues
      rw [hrequest]
      refine Nat.lt_of_lt_of_le
        (hdrawn.held task (List.mem_of_getElem? htask) wait.request ?_) hle
      rw [hheld]
      rfl
  · intro grant code codeVerifier hgrant
    rcases hstep.grants_linked hsystem hgrant with hbefore | ⟨hcode, -⟩
    · exact Nat.lt_of_lt_of_le (hdrawn.grants grant code codeVerifier hbefore) hle
    · exact Nat.lt_of_lt_of_le (hdrawn.codes code hcode) hle

/-- In every reachable state the tables are sound and every id in them has been drawn. -/
theorem Reachable.drawn (hreachable : Reachable env system) :
    system.Sound ∧ system.Drawn := by
  apply hreachable.invariant
  · intro settings vaultKeyId now
    constructor <;> simp [System.initial, Server.initial]
  · intro system label next hsystem hdrawn hstep
    exact hdrawn.stepped hsystem hstep

/-- The transaction, and every copy of it that a task holds, names one connection: once set, no
step changes it to another. -/
structure Names (txn connectionId : Id) (system : System) : Prop where
  drawn : txn < system.server.nextId
  requests : ∀ row ∈ system.server.requests, row.id = txn →
    row.connectionId = some connectionId
  held : ∀ task ∈ system.tasks, ∀ request, task.held.transaction = some request →
    request.id = txn → request.connectionId = some connectionId

variable {txn connectionId : Id}

/-- A transaction that names a connection by its resource goes on naming it. -/
theorem Names.stepped (hnames : system.Names txn connectionId) (hsystem : system.Sound)
    (hstep : Stepped env system label next) : next.Names txn connectionId := by
  obtain ⟨hle, -⟩ := hstep.grants hsystem
  have hrequests : ∀ row ∈ next.server.requests, row.id = txn →
      row.connectionId = some connectionId := by
    intro row hrow hid
    rcases hstep.requests_linked hsystem row hrow with ⟨old, hold, hsame, hlink⟩ | hnew
    · rcases hlink with hkept | ⟨task, htask, request, hheld, hrequest, hnamed⟩
      · rw [hkept]
        exact hnames.requests old hold (hsame.symm.trans hid)
      · exact hnamed connectionId (hnames.held task htask request hheld (hrequest.trans hid))
    · rw [hid] at hnew
      exact absurd hnames.drawn (Nat.not_lt.mpr hnew)
  refine ⟨Nat.lt_of_lt_of_le hnames.drawn hle, hrequests, ?_⟩
  intro task htask request hrequest hid
  rcases hstep.tasksGoOn task htask with ⟨old, hold, hsame, -⟩ | hbegun
  · rw [hsame] at hrequest
    exact hnames.held old hold request hrequest hid
  · exact hrequests request (begun_transaction hbegun hrequest) hid

/- The decision that a code came of -/

/-- A task that waits with a decision waited with it before, or has just been begun by the
request for that decision. -/
theorem step_decide {task : Task} (htask : task ∈ (system.step env label).tasks)
    {wait : DecideWait} (hheld : task.held = .decide wait) :
    (∃ old ∈ system.tasks, old.held = .decide wait) ∨
      ∃ form cookieTxn, label = .request (.decide form cookieTxn) ∧
        system.server.beginDecide env form cookieTxn = .ok wait := by
  cases label with
  | request request =>
      rcases List.mem_append.mp htask with hold | hnew
      · exact Or.inl ⟨task, hold, hheld⟩
      · obtain ⟨form, cookieTxn, rfl, hbegin⟩ := Server.receive_decide hnew hheld
        exact Or.inr ⟨form, cookieTxn, rfl, hbegin⟩
  | resume index reply =>
      simp only [step] at htask
      split at htask
      · exact Or.inl ⟨task, htask, hheld⟩
      · rename_i waiting hwaiting
        split at htask
        · exact Or.inl ⟨task, htask, hheld⟩
        · rename_i server started hproceed
          rcases List.mem_append.mp htask with hold | hnew
          · exact Or.inl ⟨task, List.mem_of_mem_eraseIdx hold, hheld⟩
          · exact Or.inl ⟨waiting, List.mem_of_getElem? hwaiting,
              Server.proceed_decide hproceed hnew hheld⟩
  | advance milliseconds => exact Or.inl ⟨task, htask, hheld⟩
  | housekeeping => exact Or.inl ⟨task, htask, hheld⟩
  | restart vaultKeyId => cases htask

/-- The run has received a request for this decision. -/
def Receives (env : Env) (start : System) (labels : List Label) (wait : DecideWait) : Prop :=
  ∃ before form cookieTxn after, labels = before ++ .request (.decide form cookieTxn) :: after ∧
    (run env start before).server.beginDecide env form cookieTxn = .ok wait

/-- The decision that the code was drawn for came in while this was the service's public base
URL: the run receives the decision, and later resumes its task, which draws the code's id and
stores a code under it. Only one step of a run does that, so there is one such address. -/
def DecidedUnder (env : Env) (start : System) (labels : List Label)
    (code : AuthorizationCodeRow) (publicBaseUrl : String) : Prop :=
  ∃ before form cookieTxn between index after wait task,
    labels = before ++ .request (.decide form cookieTxn) ::
      (between ++ .resume index .done :: after) ∧
    (run env start before).server.settings.publicBaseUrl = some publicBaseUrl ∧
    (run env start before).server.beginDecide env form cookieTxn = .ok wait ∧
    wait.request.id = code.requestId ∧
    (run env start (before ++ .request (.decide form cookieTxn) :: between)).tasks[index]? =
      some task ∧
    task.held = .decide wait ∧
    (run env start (before ++ .request (.decide form cookieTxn) :: between)).server.nextId =
      code.id ∧
    ∃ row ∈ (run env start (before ++ .request (.decide form cookieTxn) ::
      (between ++ [.resume index .done]))).server.codes, row.id = code.id

/-- A run with a step at its end. -/
theorem run_snoc (start : System) (labels : List Label) (label : Label) :
    run env start (labels ++ [label]) = (run env start labels).step env label := by
  rw [run, StepRun.run_append, StepRun.run_cons, StepRun.run_nil]
  rfl

/-- A decision that has come in has come in, whatever happens after it. -/
theorem Receives.snoc {start : System} {labels : List Label} {wait : DecideWait}
    (hreceives : Receives env start labels wait) (label : Label) :
    Receives env start (labels ++ [label]) wait := by
  obtain ⟨before, form, cookieTxn, after, rfl, hbegin⟩ := hreceives
  exact ⟨before, form, cookieTxn, after ++ [label], by simp, hbegin⟩

/-- The address at the time of a code's decision does not depend on what happens after it. -/
theorem DecidedUnder.snoc {start : System} {labels : List Label} {code : AuthorizationCodeRow}
    {publicBaseUrl : String} (hdecided : DecidedUnder env start labels code publicBaseUrl)
    (label : Label) : DecidedUnder env start (labels ++ [label]) code publicBaseUrl := by
  obtain ⟨before, form, cookieTxn, between, index, after, wait, task, rfl, hfound⟩ := hdecided
  exact ⟨before, form, cookieTxn, between, index, after ++ [label], wait, task, by simp, hfound⟩

/-- A code's row may change, by its redemption for instance, and was still decided under the
same address. -/
theorem DecidedUnder.linked {start : System} {labels : List Label}
    {old row : AuthorizationCodeRow} {publicBaseUrl : String}
    (hdecided : DecidedUnder env start labels old publicBaseUrl) (hlinked : CodeLinked old row) :
    DecidedUnder env start labels row publicBaseUrl := by
  obtain ⟨hid, hrequest, -⟩ := hlinked
  rw [DecidedUnder, hid, hrequest]
  exact hdecided

/-- No step of a run takes the next number back. -/
theorem nextId_le_run (hsystem : system.Sound) (labels : List Label) :
    system.server.nextId ≤ (run env system labels).server.nextId :=
  (StepRun.invariant_of_run (step env)
    (fun next => next.Sound ∧ system.server.nextId ≤ next.server.nextId)
    (fun _ label h => ⟨h.1.step label,
      Nat.le_trans h.2 ((step_stepped h.1.server label).grants h.1).1⟩)
    labels ⟨hsystem, Nat.le_refl _⟩).2

/-- Once a code is stored, no later state has its id as the next number to draw. -/
theorem nextId_ne_of_stored {start : System} (hstart : start.Sound) {front more : List Label}
    {label : Label} {codeId : Id}
    (hstored : ∃ row ∈ (run env start (front ++ [label])).server.codes, row.id = codeId) :
    (run env start (front ++ label :: more)).server.nextId ≠ codeId := by
  obtain ⟨row, hrow, rfl⟩ := hstored
  have hsystem : (run env start (front ++ [label])).Sound :=
    StepRun.invariant_of_run (step env) System.Sound (fun _ label h => h.step label) _ hstart
  have hlt := hsystem.server.code_lt row hrow
  have hle : (run env start (front ++ [label])).server.nextId ≤
      (run env (run env start (front ++ [label])) more).server.nextId :=
    nextId_le_run hsystem more
  have hrun : run env start (front ++ label :: more) =
      run env (run env start (front ++ [label])) more := by
    rw [run, run, run, ← StepRun.run_append, List.append_assoc, List.singleton_append]
  rw [hrun]
  exact Nat.ne_of_gt (Nat.lt_of_lt_of_le hlt hle)

/-- A code is decided under one public base URL only. -/
theorem DecidedUnder.unique {start : System} (hstart : start.Sound) {labels : List Label}
    {code : AuthorizationCodeRow} {publicBaseUrl other : String}
    (hdecided : DecidedUnder env start labels code publicBaseUrl)
    (hother : DecidedUnder env start labels code other) : publicBaseUrl = other := by
  obtain ⟨before, form, cookieTxn, between, index, after, wait, task, hlabels, hurl, hbegin, -,
    htask, hheld, hdraws, hstored⟩ := hdecided
  obtain ⟨before', form', cookieTxn', between', index', after', wait', task', hlabels', hurl',
    hbegin', -, htask', hheld', hdraws', hstored'⟩ := hother
  rw [← List.cons_append, ← List.append_assoc] at hlabels hlabels' hstored hstored'
  -- The two steps are one, since the later of two would draw a number that is taken.
  have hsame : before ++ .request (.decide form cookieTxn) :: between =
      before' ++ .request (.decide form' cookieTxn') :: between' ∧ index = index' := by
    rcases List.append_eq_append_iff.mp (hlabels.symm.trans hlabels') with
      ⟨more, hfront, hback⟩ | ⟨more, hfront, hback⟩
    · cases more with
      | nil =>
          rw [List.append_nil] at hfront
          rw [List.nil_append, List.cons.injEq, Label.resume.injEq] at hback
          exact ⟨hfront.symm, hback.1.1⟩
      | cons label more =>
          rw [List.cons_append, List.cons.injEq] at hback
          rw [hfront, ← hback.1] at hdraws'
          exact absurd hdraws' (nextId_ne_of_stored hstart hstored)
    · cases more with
      | nil =>
          rw [List.append_nil] at hfront
          rw [List.nil_append, List.cons.injEq, Label.resume.injEq] at hback
          exact ⟨hfront, hback.1.1.symm⟩
      | cons label more =>
          rw [List.cons_append, List.cons.injEq] at hback
          rw [hfront, ← hback.1] at hdraws
          exact absurd hdraws (nextId_ne_of_stored hstart hstored')
  rw [hsame.1, hsame.2, htask'] at htask
  rw [← Option.some.inj htask, hheld'] at hheld
  have hissuer := Server.beginDecide_issuer hbegin
  rw [← Held.decide.inj hheld, ← Server.beginDecide_issuer hbegin', hurl', hurl] at hissuer
  exact Option.some.inj hissuer

theorem DecidedUnder.iff_eq {start : System} (hstart : start.Sound) {labels : List Label}
    {code : AuthorizationCodeRow} {publicBaseUrl : String}
    (hdecided : DecidedUnder env start labels code publicBaseUrl) (other : String) :
    DecidedUnder env start labels code other ↔ other = publicBaseUrl := by
  constructor
  · exact fun hother => hother.unique hstart hdecided
  · rintro rfl
    exact hdecided

/-- A code drawn by the next step came of a decision that the run has received. -/
theorem Receives.decidedUnder {start : System} {labels : List Label} {wait : DecideWait}
    (hreceives : Receives env start labels wait) {index : Nat} {task : Task}
    (htask : (run env start labels).tasks[index]? = some task)
    (hheld : task.held = .decide wait) {code : AuthorizationCodeRow}
    (hid : code.id = (run env start labels).server.nextId)
    (hrequest : code.requestId = wait.request.id)
    (hcode : code ∈ (run env start (labels ++ [.resume index .done])).server.codes) :
    DecidedUnder env start (labels ++ [.resume index .done]) code wait.issuer := by
  obtain ⟨before, form, cookieTxn, between, rfl, hbegin⟩ := hreceives
  rw [List.append_assoc, List.cons_append] at hcode
  exact ⟨before, form, cookieTxn, between, index, [], wait, task, by simp,
    Server.beginDecide_issuer hbegin, hbegin, hrequest.symm, htask, hheld, hid.symm, code, hcode,
    rfl⟩

/-- Everything that came of a transaction is for the resource of its connection, under the
public base URL that the service had when the decision on the transaction came in. -/
structure Traced (env : Env) (start : System) (labels : List Label) (txn connectionId : Id) :
    Prop where
  received : ∀ task ∈ (run env start labels).tasks, ∀ wait, task.held = .decide wait →
    wait.request.id = txn → Receives env start labels wait
  codes : ∀ row ∈ (run env start labels).server.codes, row.requestId = txn →
    ∃ publicBaseUrl, DecidedUnder env start labels row publicBaseUrl ∧
      row.resource = resourceFor publicBaseUrl connectionId
  grants : ∀ grant code codeVerifier,
    .grantIssued grant code codeVerifier ∈ (run env start labels).server.history →
      code.requestId = txn → grant.id < (run env start labels).server.nextId ∧
        ∃ publicBaseUrl, DecidedUnder env start labels code publicBaseUrl ∧
          ∀ row ∈ (run env start labels).server.grants, row.id = grant.id →
            row.resource = resourceFor publicBaseUrl connectionId

/-- One step of a run keeps the trace from a transaction to its codes, grants and tokens. -/
theorem Traced.snoc {start : System} {labels : List Label}
    (htraced : Traced env start labels txn connectionId)
    (hnames : (run env start labels).Names txn connectionId)
    (hsystem : (run env start labels).Sound) (hdrawn : (run env start labels).Drawn)
    (label : Label) : Traced env start (labels ++ [label]) txn connectionId := by
  have hstep : Stepped env (run env start labels) label (run env start (labels ++ [label])) := by
    rw [run_snoc]
    exact step_stepped hsystem.server label
  obtain ⟨hle, hgrants⟩ := hstep.grants hsystem
  refine ⟨?_, ?_, ?_⟩
  · intro task htask wait hheld hid
    rw [run_snoc] at htask
    rcases step_decide htask hheld with ⟨old, hold, hsame⟩ | ⟨form, cookieTxn, rfl, hbegin⟩
    · exact (htraced.received old hold wait hsame hid).snoc label
    · exact ⟨labels, form, cookieTxn, [], rfl, hbegin⟩
  · intro row hrow hid
    rcases hstep.codes_linked hsystem row hrow with ⟨old, hold, hlinked⟩ | hissues
    · obtain ⟨publicBaseUrl, hdecided, hresource⟩ :=
        htraced.codes old hold (hlinked.2.1.symm.trans hid)
      exact ⟨publicBaseUrl, (hdecided.linked hlinked).snoc label, hlinked.2.2.trans hresource⟩
    · obtain ⟨index, task, wait, rfl, htask, hheld, hdraws, hrequest, hresource⟩ := hissues
      have hmem := List.mem_of_getElem? htask
      have htxn := hrequest.symm.trans hid
      have hnamed := hnames.held task hmem wait.request (by rw [hheld]; rfl) htxn
      have hconnection := (hdrawn.decisions task hmem wait hheld).connection
      have hreceived := htraced.received task hmem wait hheld htxn
      refine ⟨wait.issuer, hreceived.decidedUnder htask hheld hdraws hrequest hrow, ?_⟩
      rw [hresource, Option.some.inj (hconnection.symm.trans hnamed)]
  · intro grant code codeVerifier hgrant hid
    rcases hstep.grants_linked hsystem hgrant with hbefore | ⟨hcode, hlt, hstored⟩
    · obtain ⟨hlt, publicBaseUrl, hdecided, hrows⟩ :=
        htraced.grants grant code codeVerifier hbefore hid
      refine ⟨Nat.lt_of_lt_of_le hlt hle, publicBaseUrl, hdecided.snoc label, ?_⟩
      apply hgrants.forall _ _ hrows
      · intro old row hgoesOn hold hsame
        rw [hgoesOn.1] at hsame ⊢
        exact hold hsame
      · intro row hnew hsame
        rw [hsame] at hnew
        exact absurd hlt (Nat.not_lt.mpr hnew)
    · obtain ⟨publicBaseUrl, hdecided, hresource⟩ := htraced.codes code hcode hid
      refine ⟨hlt, publicBaseUrl, hdecided.snoc label, ?_⟩
      intro row hrow hsame
      rw [hstored row hrow hsame, hresource]

/-- So does a whole run, by induction on its steps. -/
theorem Traced.run {start : System} (htraced : Traced env start [] txn connectionId)
    (hnames : start.Names txn connectionId) (hsystem : start.Sound) (hdrawn : start.Drawn)
    (labels : List Label) : Traced env start labels txn connectionId := by
  have hkept : ∀ labels : List Label, (System.run env start labels).Sound ∧
      (System.run env start labels).Drawn ∧ (System.run env start labels).Names txn connectionId :=
    fun labels => StepRun.invariant_of_run (System.step env)
      (fun system => system.Sound ∧ system.Drawn ∧ system.Names txn connectionId)
      (fun system label h =>
        have hstep : Stepped env system label (system.step env label) :=
          step_stepped h.1.server label
        ⟨h.1.step label, h.2.1.stepped h.1 hstep, h.2.2.stepped h.1 hstep⟩)
      labels ⟨hsystem, hdrawn, hnames⟩
  induction labels using List.reverseRecOn with
  | nil => exact htraced
  | append_singleton labels label ih =>
      obtain ⟨hsound, hdrawn, hnames⟩ := hkept labels
      exact ih.snoc hnames hsound hdrawn label

/-- The authorization endpoint accepts this resource for this connection: the resolved client
gets the sign-in page of a new transaction. -/
structure Started (env : Env) (system : System) (index : Nat) (resource : String)
    (connection : ConnectionRow) : Prop where
  accepted : ∃ client wait csrf scopes expiresAt,
    system.tasks[index]? = some (.resolvingClient (.resolved (.ok client)) (.start wait)) ∧
    param wait.query "resource" = some resource ∧
    (connectionIdFromResource env wait.issuer resource).bind
      system.server.findConnectionByText = some connection ∧
    (system.server.finishStart env wait (.ok client)).1 =
      .login system.server.nextId csrf true scopes expiresAt none none

/-- The start of a transaction stores a row that names the connection of the resource that was
asked for. -/
theorem Started.stepped {index : Nat} {resource : String} {connection : ConnectionRow}
    (hstarted : Started env system index resource connection) :
    ∃ row, row.id = system.server.nextId ∧ row.connectionId = some connection.id ∧
      system.step env (.resume index .done) =
        ⟨{ system.server.createAuthorizationRequest row with
          nextId := system.server.nextId + 2 }, system.tasks.eraseIdx index⟩ := by
  obtain ⟨client, wait, csrf, scopes, expiresAt, htask, hresource, hnamed, hlogin⟩ :=
    hstarted.accepted
  obtain ⟨redirectUri, hserver⟩ := Server.finishStart_login hresource hnamed hlogin
  refine ⟨system.server.requestRow wait client redirectUri (some connection), rfl, rfl, ?_⟩
  simp [System.step, htask, Server.proceed, Server.continueWith, hserver]

/-- From then on the transaction names that connection. -/
theorem Started.names {index : Nat} {resource : String} {connection : ConnectionRow}
    (hstarted : Started env system index resource connection) (hsystem : system.Sound)
    (hdrawn : system.Drawn) :
    (system.step env (.resume index .done)).Names system.server.nextId connection.id := by
  obtain ⟨row, -, hconnection, hstep⟩ := hstarted.stepped
  rw [hstep]
  refine ⟨Nat.lt_add_of_pos_right (by decide), ?_, ?_⟩
  · intro other hother hid
    rcases List.mem_append.mp hother with hold | hnew
    · have hlt := hsystem.server.request_lt other hold
      exact absurd hid (Nat.ne_of_lt hlt)
    · rw [List.mem_singleton.mp hnew]
      exact hconnection
  · intro task htask request hrequest hid
    have hlt := hdrawn.held task (List.mem_of_mem_eraseIdx htask) request hrequest
    exact absurd hid (Nat.ne_of_lt hlt)

/-- Nothing has come of a transaction that has just begun, so that the trace holds at its
beginning. -/
theorem Started.traced {index : Nat} {resource : String} {connection : ConnectionRow}
    (hstarted : Started env system index resource connection) (hdrawn : system.Drawn) :
    Traced env (system.step env (.resume index .done)) [] system.server.nextId connection.id := by
  obtain ⟨row, -, -, hstep⟩ := hstarted.stepped
  rw [hstep]
  refine ⟨?_, ?_, ?_⟩
  · intro task htask wait hheld hid
    have hlt := hdrawn.held task (List.mem_of_mem_eraseIdx htask) wait.request
      (by rw [hheld]; rfl)
    exact absurd hid (Nat.ne_of_lt hlt)
  · intro code hcode hid
    exact absurd hid (Nat.ne_of_lt (hdrawn.codes code hcode))
  · intro grant code codeVerifier hgrant hid
    exact absurd hid (Nat.ne_of_lt (hdrawn.grants grant code codeVerifier hgrant))

/-- The token endpoint goes along with the resource that the authorization endpoint accepted,
for the code and for every refresh token of its grant, exactly when the client spells it as
the canonical one, up to one slash at its end.  The canonical one is that of the public base URL
which the service had when the decision that drew the code came in. -/
theorem acceptedResource_iff (hreachable : Reachable env system) {index : Nat}
    {resource : String} {connection : ConnectionRow}
    (hstarted : Started env system index resource connection) (labels : List Label) :
    let started := system.step env (.resume index .done)
    let later := (run env started labels).server
    (∀ code client form, later.PresentsCode env code client form →
      code.requestId = system.server.nextId → form.resource = some resource →
        ∃ publicBaseUrl,
          (∀ other, DecidedUnder env started labels code other ↔ other = publicBaseUrl) ∧
          (¬ Server.TargetRefused (later.answerToken env client form).1 ↔
            stripTrailingSlash resource = resourceFor publicBaseUrl connection.id)) ∧
    ∀ issued code codeVerifier token grant client form,
      .grantIssued issued code codeVerifier ∈ later.history →
        code.requestId = system.server.nextId → later.PresentsToken token grant client form →
          grant.id = issued.id → form.resource = some resource →
            ∃ publicBaseUrl,
              (∀ other, DecidedUnder env started labels code other ↔ other = publicBaseUrl) ∧
              (¬ Server.TargetRefused (later.answerToken env client form).1 ↔
                stripTrailingSlash resource = resourceFor publicBaseUrl connection.id) := by
  intro started later
  obtain ⟨hsystem, hdrawn⟩ := hreachable.drawn
  have hnext : Stepped env system (.resume index .done) started :=
    step_stepped hsystem.server (.resume index .done)
  have htraced : Traced env started labels system.server.nextId connection.id :=
    (hstarted.traced hdrawn).run (hstarted.names hsystem hdrawn) (hsystem.stepped hnext)
      (hdrawn.stepped hsystem hnext) labels
  have hunique : ∀ {code base}, DecidedUnder env started labels code base → ∀ other,
      DecidedUnder env started labels code other ↔ other = base :=
    fun hdecided => hdecided.iff_eq (hsystem.stepped hnext)
  refine ⟨?_, ?_⟩
  · intro code client form hpresents hrequest hresource
    obtain ⟨codeHash, -, hfind⟩ := hpresents.found
    obtain ⟨publicBaseUrl, hdecided, hcode⟩ := htraced.codes code (mem_of_lookup hfind) hrequest
    refine ⟨publicBaseUrl, hunique hdecided, ?_⟩
    rw [hpresents.answer hresource, hcode]
    constructor
    · intro hagrees
      by_contra hspelled
      refine hagrees ⟨?_, hspelled⟩
      intro heq
      rw [heq] at hspelled
      exact hspelled (Server.stripTrailingSlash_resourceFor publicBaseUrl connection.id)
    · intro hspelled hrefused
      exact hrefused.2 hspelled
  · intro issued code codeVerifier token grant client form hissued hrequest hpresents hid
      hresource
    obtain ⟨tokenHash, -, -, hfind⟩ := hpresents.found
    obtain ⟨-, publicBaseUrl, hdecided, hrows⟩ :=
      htraced.grants issued code codeVerifier hissued hrequest
    have hgrant := hrows grant (mem_of_lookup hfind) hid
    refine ⟨publicBaseUrl, hunique hdecided, ?_⟩
    rw [hpresents.answer hresource, hgrant, ne_eq, not_not]

end System

/- A client that asks for its connection's resource -/

namespace AskedResource

open OneConnection

def canonical : String := "https://mcp.example.com/mcp/c00000000000000000000000001"

/-- The same resource, with its scheme and host in capitals. -/
def capitals : String := "HTTPS://MCP.EXAMPLE.COM/mcp/c00000000000000000000000001"

def env : Env := { OneConnection.env with
  parseUrl := fun text =>
    if text = canonical ∨ text = capitals then
      some ⟨"https:", "mcp.example.com", "https://mcp.example.com",
        "/mcp/c00000000000000000000000001", "", "", "", ""⟩
    else if text = "https://mcp.example.com" then
      some ⟨"https:", "mcp.example.com", "https://mcp.example.com", "/", "", "", "", ""⟩
    else OneConnection.env.parseUrl text }

def query (resource : String) : Query :=
  [("response_type", "code"), ("client_id", "dcr_5"), ("code_challenge", codeChallenge),
    ("code_challenge_method", "S256"), ("resource", resource)]

/-- The client sends the browser, and waits to be resolved. -/
def asked (resource : String) : System :=
  System.run env start (prepared ++ [Label.request (.start (query resource))])

/-- Both spellings of the resource belong to a state that the service can reach. -/
theorem asked_reachable (resource : String) : System.Reachable env (asked resource) :=
  ⟨settings, some "k1", 1000, _, rfl⟩

def connection : ConnectionRow :=
  ⟨1, 0, "owner@example.com", "Assistant", [.mailRead], [], .enabled, none, none, none, none,
    none⟩

/-- Both spellings start a transaction for the same connection. -/
theorem asked_started {resource : String}
    (hresource : resource = canonical ∨ resource = capitals) :
    System.Started env (asked resource) 0 resource connection where
  accepted := by
    refine ⟨client, ⟨"https://mcp.example.com", query resource, "dcr_5"⟩, 8,
      some [.mailRead], 1000 + AUTHORIZATION_REQUEST_TTL_SECONDS * 1000, ?_⟩
    rcases hresource with rfl | rfl
    · decide
    · decide

/-- The owner signs in and approves. -/
def approved : List Label :=
  [Label.request (.login form (some 7) (some "192.0.2.1")), .resume 0 .done, .resume 0 .done] ++
    OneConnection.approve

def later (resource : String) (labels : List Label) : Server :=
  (System.run env ((asked resource).step env (.resume 0 .done)) labels).server

/-- The owner's code 9, with the hash 10. -/
def code : AuthorizationCodeRow :=
  ⟨9, 10, 7, "dcr_5", redirectUri, codeChallenge, [.mailRead], canonical, 1, 4, 1000, 61000,
    none, none⟩

def codeForm (resource : String) : TokenForm :=
  { tokenForm 10 (some codeVerifier) with resource := some resource }

/-- The client redeems the code without naming the resource. -/
def redeemed : List Label :=
  approved ++ askToken 10 (some codeVerifier) ++ [Label.resume 0 .done]

/-- The refresh token 14, with the hash 15. -/
def token : RefreshTokenRow := ⟨14, 15, 11, none, 1000, 2592001000, none, none⟩

def refreshForm (resource : String) : TokenForm :=
  ⟨some "refresh_token", none, none, none, some 15, none, some resource⟩

/-- What the runs come to, computed once for both spellings. -/
theorem asked_facts {resource : String}
    (hresource : resource = canonical ∨ resource = capitals) :
    (asked resource).server.nextId = 7 ∧
    ((later resource approved).findCodeByHash 10 = some code ∧
      (later resource approved).now < code.expiresAt) ∧
    (later resource redeemed).findRefreshTokenByHash 15 = some token ∧
      (later resource redeemed).findGrant 11 = some grant ∧
      (later resource redeemed).now < token.expiresAt ∧
      .grantIssued grant code codeVerifier ∈ (later resource redeemed).history := by
  rcases hresource with rfl | rfl
  · decide
  · decide

/-- The form of the exchange presents the code that the run has issued. -/
theorem presentsCode {resource : String}
    (hresource : resource = canonical ∨ resource = capitals) :
    (later resource approved).PresentsCode env code client (codeForm resource) where
  grantType := rfl
  mayRedeem := by decide
  found := ⟨10, rfl, (asked_facts hresource).2.1.1⟩
  unredeemed := rfl
  sameClient := rfl
  unexpired := (asked_facts hresource).2.1.2
  redirectUri := rfl
  verifier := ⟨codeVerifier, rfl, by decide⟩

/-- The form of the refresh presents the token that the run has issued. -/
theorem presentsToken {resource : String}
    (hresource : resource = canonical ∨ resource = capitals) :
    (later resource redeemed).PresentsToken token grant client (refreshForm resource) where
  grantType := rfl
  mayRefresh := by decide
  found := by
    obtain ⟨-, -, htoken, hgrant, -⟩ := asked_facts hresource
    exact ⟨15, rfl, htoken, hgrant⟩
  sameClient := rfl
  unused := rfl
  unrevoked := ⟨rfl, rfl⟩
  unexpired := (asked_facts hresource).2.2.2.2.1

/-- Spelled as the canonical one, the resource goes with the code and its refresh token: the
decision on both came in under the base URL that the client's text begins with, and the token
endpoint compares texts. -/
theorem canonical_redeems :
    (¬ Server.TargetRefused
        ((later canonical approved).answerToken env client (codeForm canonical)).1 ∧
      ∃ publicBaseUrl, System.DecidedUnder env ((asked canonical).step env (.resume 0 .done))
          approved code publicBaseUrl ∧
        stripTrailingSlash canonical = resourceFor publicBaseUrl 1) ∧
    ¬ Server.TargetRefused
        ((later canonical redeemed).answerToken env client (refreshForm canonical)).1 ∧
      ∃ publicBaseUrl, System.DecidedUnder env ((asked canonical).step env (.resume 0 .done))
          redeemed code publicBaseUrl ∧
        stripTrailingSlash canonical = resourceFor publicBaseUrl 1 := by
  have hcode := presentsCode (Or.inl rfl : canonical = _ ∨ _)
  have htoken := presentsToken (Or.inl rfl : canonical = _ ∨ _)
  have hredeems : ¬ Server.TargetRefused
      ((later canonical approved).answerToken env client (codeForm canonical)).1 :=
    fun hrefused => absurd ((hcode.answer rfl).mp hrefused) (by decide)
  have hrefreshes : ¬ Server.TargetRefused
      ((later canonical redeemed).answerToken env client (refreshForm canonical)).1 :=
    fun hrefused => absurd ((htoken.answer rfl).mp hrefused) (by decide)
  obtain ⟨hnextId, -, -, -, -, hissued⟩ := asked_facts (Or.inl rfl : canonical = _ ∨ _)
  obtain ⟨hcodes, -⟩ := System.acceptedResource_iff (asked_reachable canonical)
    (asked_started (Or.inl rfl)) approved
  obtain ⟨-, htokens⟩ := System.acceptedResource_iff (asked_reachable canonical)
    (asked_started (Or.inl rfl)) redeemed
  obtain ⟨base, hdecided, hiff⟩ := hcodes code client _ hcode hnextId.symm rfl
  obtain ⟨base', hdecided', hiff'⟩ :=
    htokens grant code codeVerifier token grant client _ hissued hnextId.symm htoken rfl rfl
  exact ⟨⟨hredeems, base, (hdecided base).mpr rfl, hiff.mp hredeems⟩,
    hrefreshes, base', (hdecided' base').mpr rfl, hiff'.mp hrefreshes⟩

/-- A client that writes the scheme and the host in capitals is sent to the sign-in page, since
that reading goes through the parser of URLs, and is refused with the code and with the refresh
token. -/
theorem capitals_refused :
    System.Reachable env (asked capitals) ∧
      System.Started env (asked capitals) 0 capitals connection ∧
      (later capitals approved).PresentsCode env code client (codeForm capitals) ∧
      Server.TargetRefused
        ((later capitals approved).answerToken env client (codeForm capitals)).1 ∧
      (later capitals redeemed).PresentsToken token grant client (refreshForm capitals) ∧
      Server.TargetRefused
        ((later capitals redeemed).answerToken env client (refreshForm capitals)).1 := by
  have hcode := presentsCode (Or.inr rfl)
  have htoken := presentsToken (Or.inr rfl)
  refine ⟨asked_reachable capitals, asked_started (Or.inr rfl), hcode, ?_, htoken, ?_⟩
  · exact (hcode.answer rfl).mpr (by decide)
  · exact (htoken.answer rfl).mpr (by decide)

end AskedResource

end Mcp

end MailPanel
