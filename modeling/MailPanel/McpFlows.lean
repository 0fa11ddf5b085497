import MailPanel.McpServices

/-
What sign-in, decision, redemption and refresh do to the tables.  Where one of
them does more than evolve, one theorem says what it has checked by then.
-/

namespace MailPanel

namespace Mcp

open RowTable

namespace Server

variable {mandate : Mandate} {s t : Server}

section Clients

theorem evolves_register (env : Env) (request : RegistrationRequest) :
    s.Evolves mandate (s.register env request).2 := by
  rw [register]
  split
  · exact Evolves.refl mandate s
  · split
    · exact Evolves.refl mandate s
    · split
      · exact Evolves.refl mandate s
      · split
        · exact Evolves.refl mandate s
        · refine (evolves_draw 2).trans (Evolves.of_tracked ?_)
          simp only [tracked, upsertClient]
          split <;> rfl

theorem evolves_finishFetch (clientId : String) (document : Except String ClientMetadata) :
    s.Evolves mandate (s.finishFetch clientId document).2 := by
  cases document with
  | error reason => exact Evolves.refl mandate s
  | ok document =>
      simp only [finishFetch]
      split
      · exact Evolves.refl mandate s
      · split
        · exact evolves_upsertClient _
        · exact evolves_upsertClient _

end Clients

section Tokens

theorem refreshScopes_subset {scope : Option String} {grant : GrantRow}
    {connection : ConnectionRow} {scopes : List McpScope}
    (hscopes : refreshScopes scope grant connection = .ok scopes) :
    ∀ scope ∈ scopes, scope ∈ grant.scopes := by
  intro wanted hwanted
  simp only [refreshScopes] at hscopes
  split at hscopes
  · cases hscopes
    exact (List.mem_filter.mp hwanted).1
  · split at hscopes
    · cases hscopes
    · cases hscopes
      exact (List.mem_filter.mp (List.mem_filter.mp hwanted).1).1

/-- What `refresh` has found by the time it mints new tokens: the presented token and its grant,
both live and of this client, and permissions within those of the grant. -/
structure Refreshing (s : Server) (input : RefreshInput) (token : RefreshTokenRow)
    (grant : GrantRow) (scopes : List McpScope) : Prop where
  presented : ∃ tokenHash, input.refreshToken = some tokenHash ∧
    s.findRefreshTokenByHash tokenHash = some token
  grant_found : s.findGrant token.grantId = some grant
  client : grant.clientId = input.client.clientId
  unused : token.usedAt = none
  accepted : s.refreshRefusal input token grant = none
  usable : s.connectionUnusable grant.connectionId = none
  scopes_subset : ∀ scope ∈ scopes, scope ∈ grant.scopes

/-- The tables once the token is used and its successor and an access token are minted. -/
def refreshed (s : Server) (token : RefreshTokenRow) (grant : GrantRow)
    (scopes : List McpScope) : Server :=
  (((s.markRefreshTokenUsed token.id).2.touchGrant grant.id).mintPair grant.id
    grant.connectionId scopes grant.resource (some token.id)).2

/-- The ways a refresh ends: it refuses and changes nothing, revokes the grant of a token that
was used before or is being used twice, or stores a new pair of tokens. -/
inductive RefreshOutcome (s : Server) (input : RefreshInput) :
    Except OAuthError TokenResponse × Server → Prop
  | refused (error : OAuthError) : RefreshOutcome s input (.error error, s)
  | replayed (error : OAuthError) {token : RefreshTokenRow} {grant : GrantRow}
      (presented : ∃ tokenHash, input.refreshToken = some tokenHash ∧
        s.findRefreshTokenByHash tokenHash = some token)
      (grant_found : s.findGrant token.grantId = some grant)
      (client : grant.clientId = input.client.clientId) (used : token.usedAt ≠ none) :
      RefreshOutcome s input
        (.error error, s.revokeGrant grant.id "refresh token replay detected")
  | raced (error : OAuthError) (token : RefreshTokenRow) (grantId : Id) :
      RefreshOutcome s input (.error error,
        (s.markRefreshTokenUsed token.id).2.revokeGrant grantId
          "concurrent refresh token reuse")
  | refreshed (response : TokenResponse) {token : RefreshTokenRow} {grant : GrantRow}
      {scopes : List McpScope} (refreshing : s.Refreshing input token grant scopes) :
      RefreshOutcome s input (.ok response, s.refreshed token grant scopes)

theorem refreshGranted_outcome {input : RefreshInput} {token : RefreshTokenRow}
    {grant : GrantRow} {scopes : List McpScope}
    (hrefreshing : s.Refreshing input token grant scopes) :
    RefreshOutcome s input (s.refreshGranted token grant scopes) := by
  rw [refreshGranted]
  split
  · exact .refused _
  · split
    · rename_i marked heq
      have hmarked : (s.markRefreshTokenUsed token.id).2 = marked := congrArg Prod.snd heq
      rw [← hmarked]
      exact .raced _ token grant.id
    · rename_i marked heq
      have hmarked : (s.markRefreshTokenUsed token.id).2 = marked := congrArg Prod.snd heq
      rw [← hmarked]
      exact .refreshed _ hrefreshing

theorem refresh_outcome (s : Server) (input : RefreshInput) :
    RefreshOutcome s input (s.refresh input) := by
  rw [refresh]
  split
  · exact .refused _
  · rename_i tokenHash hpresented
    split
    · exact .refused _
    · rename_i token htoken
      split
      · exact .refused _
      · rename_i grant hgrant
        split
        · exact .refused _
        · rename_i hclient
          have hclient := Decidable.not_not.mp hclient
          split
          · rename_i hused
            exact .replayed _ ⟨tokenHash, hpresented, htoken⟩ hgrant hclient hused
          · rename_i hunused
            split
            · exact .refused _
            · rename_i haccepted
              split
              · exact .refused _
              · split
                · exact .refused _
                · rename_i husable
                  split
                  · exact .refused _
                  · rename_i hscopes
                    exact refreshGranted_outcome
                      { presented := ⟨tokenHash, hpresented, htoken⟩
                        grant_found := hgrant
                        client := hclient
                        unused := Decidable.not_not.mp hunused
                        accepted := haccepted
                        usable := husable
                        scopes_subset := refreshScopes_subset hscopes }

theorem evolves_refreshed {grant : GrantRow} (hgrant : grant ∈ s.grants)
    (token : RefreshTokenRow) {scopes : List McpScope}
    (hscopes : ∀ scope ∈ scopes, scope ∈ grant.scopes) :
    s.Evolves mandate (s.refreshed token grant scopes) := by
  have hmarked : s.Evolves mandate (s.markRefreshTokenUsed token.id).2 :=
    Evolves.of_tracked rfl
  have htouched : { grant with lastUsedAt := some s.now } ∈
      ((s.markRefreshTokenUsed token.id).2.touchGrant grant.id).grants :=
    List.mem_map.mpr ⟨grant, hgrant, by simp [markRefreshTokenUsed]⟩
  exact (hmarked.trans (evolves_touchGrant grant.id)).trans
    (evolves_mintPair htouched hscopes (some token.id))

theorem evolves_refresh (input : RefreshInput) :
    s.Evolves mandate (s.refresh input).2 := by
  have houtcome := refresh_outcome s input
  generalize s.refresh input = result at houtcome ⊢
  cases houtcome with
  | refused error => exact Evolves.refl mandate s
  | replayed error => exact evolves_revokeGrant _ _
  | raced error token grantId =>
      have hmarked : s.Evolves mandate (s.markRefreshTokenUsed token.id).2 :=
        Evolves.of_tracked rfl
      exact hmarked.trans (evolves_revokeGrant _ _)
  | refreshed response hrefreshing =>
      exact evolves_refreshed (mem_of_lookup hrefreshing.grant_found) _
        hrefreshing.scopes_subset

theorem evolves_tryRefresh (client : OAuthClientRow) (token : Secret) :
    s.Evolves mandate (s.tryRefresh client token).2 := by
  rw [tryRefresh]
  split
  · exact Evolves.refl mandate s
  · split
    · exact Evolves.refl mandate s
    · split
      · exact evolves_revokeGrant _ _
      · exact Evolves.refl mandate s

theorem evolves_tryAccess (client : OAuthClientRow) (token : Secret) :
    s.Evolves mandate (s.tryAccess client token).2 := by
  rw [tryAccess]
  split
  · exact Evolves.refl mandate s
  · split
    · exact Evolves.refl mandate s
    · split
      · exact evolves_revokeAccessTokenByHash _
      · exact Evolves.refl mandate s

theorem evolves_revokeToken (client : OAuthClientRow) (token : Secret)
    (hint : Option String) : s.Evolves mandate (s.revokeToken client token hint) := by
  have hrefresh : s.Evolves mandate (s.tryRefresh client token).2 := evolves_tryRefresh _ _
  have haccess : s.Evolves mandate (s.tryAccess client token).2 := evolves_tryAccess _ _
  rw [revokeToken]
  split
  · cases htry : s.tryAccess client token with
    | mk found tried =>
        rw [htry] at haccess
        cases found with
        | true => exact haccess
        | false => exact haccess.trans (evolves_tryRefresh _ _)
  · cases htry : s.tryRefresh client token with
    | mk found tried =>
        rw [htry] at hrefresh
        cases found with
        | true => exact hrefresh
        | false => exact hrefresh.trans (evolves_tryAccess _ _)

end Tokens

section Redemption

/-- The tables once a code is redeemed and its setup password consumed. -/
def redeemed (s : Server) (code : AuthorizationCodeRow) : Server :=
  ((s.redeemCode code.id).2.consumeEnrollment code.enrollmentId code.id).2

theorem evolves_redeemed (code : AuthorizationCodeRow) :
    s.Evolves mandate (s.redeemed code) :=
  (evolves_redeemCode code.id).trans (evolves_consumeEnrollment code.enrollmentId code.id)

/-- What `exchangeCode` has found by the time it stores a grant: an unredeemed code that passes
every check, an enrollment that can be consumed, a usable connection, and permissions within
those of the code. -/
structure Redemption (env : Env) (s : Server) (input : ExchangeInput)
    (code : AuthorizationCodeRow) (codeVerifier : String) (scopes : List McpScope) : Prop where
  presented : ∃ codeHash, input.code = some codeHash ∧ s.findCodeByHash codeHash = some code
  verifier : input.codeVerifier = some codeVerifier
  unredeemed : code.redeemedAt = none
  accepted : s.exchangeRefusal env input codeVerifier code = none
  consumable : ∃ row ∈ s.enrollments, Server.consumable code.enrollmentId code.id row = true
  usable : (s.redeemed code).connectionUnusable code.connectionId = none
  scopes_subset : ∀ scope ∈ scopes, scope ∈ code.scopes

theorem Redemption.mem {env : Env} {input : ExchangeInput} {code : AuthorizationCodeRow}
    {codeVerifier : String} {scopes : List McpScope}
    (h : s.Redemption env input code codeVerifier scopes) : code ∈ s.codes := by
  obtain ⟨codeHash, -, hfind⟩ := h.presented
  exact mem_of_lookup hfind

theorem exchangeConsumed_cases (client : OAuthClientRow) (code : AuthorizationCodeRow)
    (codeVerifier : String) :
    (s.exchangeConsumed client code codeVerifier).2 = s ∨
      s.connectionUnusable code.connectionId = none ∧
        ∃ scopes, (∀ scope ∈ scopes, scope ∈ code.scopes) ∧
          (s.exchangeConsumed client code codeVerifier).2 =
            (s.grantCode client code scopes codeVerifier).2 := by
  rw [exchangeConsumed]
  split
  · exact Or.inl rfl
  · rename_i husable
    split
    · exact Or.inl rfl
    · dsimp only
      split
      · exact Or.inl rfl
      · refine Or.inr ⟨husable, _, ?_, rfl⟩
        intro scope hscope
        exact (List.mem_filter.mp hscope).1

/-- The ways a redemption ends. Some of the refusals come after the code has been used up, and
some after the enrollment has been too, and the cases keep them apart. -/
inductive ExchangeOutcome (env : Env) (s : Server) (input : ExchangeInput) : Server → Prop
  | refused : ExchangeOutcome env s input s
  | replayed (grantId : Id) :
      ExchangeOutcome env s input (s.revokeGrant grantId "authorization code replayed")
  | unconsumed (code : AuthorizationCodeRow) :
      ExchangeOutcome env s input (s.redeemCode code.id).2
  | ungranted (code : AuthorizationCodeRow) : ExchangeOutcome env s input (s.redeemed code)
  | granted {code : AuthorizationCodeRow} {codeVerifier : String} {scopes : List McpScope}
      (redemption : s.Redemption env input code codeVerifier scopes) :
      ExchangeOutcome env s input
        ((s.redeemed code).grantCode input.client code scopes codeVerifier).2

/-- A found code that passes the checks is redeemed, with its setup password if that can
still be consumed. -/
theorem redeem_outcome {env : Env} {input : ExchangeInput} {presented : Secret}
    {codeVerifier : String} {code : AuthorizationCodeRow}
    (hpresented : input.code = some presented)
    (hverifier : input.codeVerifier = some codeVerifier)
    (hfind : s.findCodeByHash presented = some code) (hunredeemed : code.redeemedAt = none)
    (haccepted : s.exchangeRefusal env input codeVerifier code = none) :
    ExchangeOutcome env s input (match s.redeemCode code.id with
      | (false, s) =>
          (Except.error (invalidGrant "The authorization code has already been used."), s)
      | (true, s) =>
          match s.consumeEnrollment code.enrollmentId code.id with
          | (false, s) =>
              (.error (invalidGrant
                "The setup credential behind this authorization is no longer valid."), s)
          | (true, s) => s.exchangeConsumed input.client code codeVerifier).2 := by
  split
  · rename_i afterRedeem heq
    have hafter : (s.redeemCode code.id).2 = afterRedeem := congrArg Prod.snd heq
    rw [← hafter]
    exact .unconsumed code
  · rename_i afterRedeem heq
    have hafter : (s.redeemCode code.id).2 = afterRedeem := congrArg Prod.snd heq
    split
    · rename_i afterConsume heq'
      have hstate : s.redeemed code = afterConsume := by
        rw [redeemed, hafter, heq']
      rw [← hstate]
      exact .ungranted code
    · rename_i afterConsume heq'
      have hstate : s.redeemed code = afterConsume := by
        rw [redeemed, hafter, heq']
      rw [← hstate]
      rcases exchangeConsumed_cases input.client code codeVerifier with
        hsame | ⟨husable, scopes, hscopes, hgrant⟩
      · rw [hsame]
        exact .ungranted code
      · rw [hgrant]
        have hkept : afterRedeem.enrollments = s.enrollments := by
          rw [← hafter]
          rfl
        have hcount : changes s.enrollments
            (Server.consumable code.enrollmentId code.id) = 1 := by
          have hfirst := congrArg Prod.fst heq'
          simpa [consumeEnrollment, hkept] using hfirst
        exact .granted
          { presented := ⟨presented, hpresented, hfind⟩
            verifier := hverifier
            unredeemed := hunredeemed
            accepted := haccepted
            consumable := changes_pos_iff.mp (by rw [hcount]; exact Nat.one_pos)
            usable := husable
            scopes_subset := hscopes }

theorem exchangeCode_outcome (s : Server) (env : Env) (input : ExchangeInput) :
    ExchangeOutcome env s input (s.exchangeCode env input).2 := by
  rw [exchangeCode]
  split
  · rename_i presented codeVerifier hpresented hverifier
    split
    · exact .refused
    · split
      · exact .refused
      · rename_i code hfind
        split
        · dsimp only
          split
          · exact .refused
          · exact .replayed _
        · rename_i hunredeemed
          split
          · exact .refused
          · rename_i haccepted
            exact redeem_outcome hpresented hverifier hfind (Decidable.not_not.mp hunredeemed)
              haccepted
  · exact .refused

/-- A redemption evolves, or it redeems the code, consumes the setup password and
grants. -/
theorem exchangeCode_cases (mandate : Mandate) (env : Env) (input : ExchangeInput) :
    s.Evolves mandate (s.exchangeCode env input).2 ∨
      ∃ code codeVerifier scopes, s.Redemption env input code codeVerifier scopes ∧
        (s.exchangeCode env input).2 =
          ((s.redeemed code).grantCode input.client code scopes codeVerifier).2 := by
  have houtcome := exchangeCode_outcome s env input
  generalize (s.exchangeCode env input).2 = after at houtcome ⊢
  cases houtcome with
  | refused => exact Or.inl (Evolves.refl mandate s)
  | replayed grantId => exact Or.inl (evolves_revokeGrant _ _)
  | unconsumed code => exact Or.inl (evolves_redeemCode code.id)
  | ungranted code => exact Or.inl (evolves_redeemed code)
  | @granted code codeVerifier scopes hredemption =>
      exact Or.inr ⟨code, codeVerifier, scopes, hredemption, rfl⟩

/-- A redeemed code that is presented again takes its grant with it. -/
theorem exchangeCode_replayed {env : Env} {input : ExchangeInput} {codeHash : Secret}
    {codeVerifier : String} {code : AuthorizationCodeRow} {grantId : Id}
    (hcode : input.code = some codeHash) (hverifier : input.codeVerifier = some codeVerifier)
    (hclient : "authorization_code" ∈ input.client.grantTypes)
    (hfind : s.findCodeByHash codeHash = some code) (hredeemed : code.redeemedAt ≠ none)
    (hgrant : code.grantId = some grantId) :
    (s.exchangeCode env input).2 = s.revokeGrant grantId "authorization code replayed" := by
  simp [exchangeCode, hcode, hverifier, hclient, hfind, hredeemed, hgrant]

/-- Once the grant is stored, its tokens evolve the tables. -/
theorem evolves_grantCode (client : OAuthClientRow) (code : AuthorizationCodeRow)
    (scopes : List McpScope) (codeVerifier : String) :
    (s.storeGrant client code scopes codeVerifier).Evolves mandate
      (s.grantCode client code scopes codeVerifier).2 := by
  have hgrant : s.grantRow client code scopes ∈
      ((s.storeGrant client code scopes codeVerifier).touchAuthorized
        code.connectionId).grants :=
    List.mem_append_right _ List.mem_cons_self
  exact (evolves_touchAuthorized code.connectionId).trans
    (evolves_mintPair hgrant (fun _ h => h) none)

end Redemption

section SignIn

theorem evolves_finishStart (env : Env) (wait : StartWait)
    (client : Except OAuthError OAuthClientRow) :
    s.Evolves mandate (s.finishStart env wait client).2 := by
  cases client with
  | error error => exact Evolves.refl mandate s
  | ok client =>
      simp only [finishStart]
      split
      · exact Evolves.refl mandate s
      · split
        · exact Evolves.refl mandate s
        · split
          · exact Evolves.refl mandate s
          · split
            · exact Evolves.refl mandate s
            · exact evolves_createAuthorizationRequest rfl rfl

theorem evolves_recordAttempt (ip : Option String) (username : Option Nat)
    (success : Bool) : s.Evolves mandate (s.recordAttempt ip username success) :=
  Evolves.of_tracked rfl

theorem evolves_recordFailedLogin (wait : PasswordWait) :
    s.Evolves mandate (s.recordFailedLogin wait) := by
  have hattempted : s.Evolves mandate (s.recordAttempt wait.ip wait.form.username false) :=
    evolves_recordAttempt _ _ _
  rw [recordFailedLogin]
  split
  · exact hattempted
  · split
    · exact hattempted.trans (evolves_recordFailedAttempt _)
    · exact hattempted

/-- A password check ends without effect on the transaction, or the enrollment that
was read when it began signs in. -/
theorem finishLogin_cases (mandate : Mandate) (wait : PasswordWait) :
    s.Evolves mandate (s.finishLogin wait).2 ∨
      ∃ enrollment connection, wait.enrollment = some enrollment ∧
        s.enrollmentProblem enrollment wait.request = none ∧
        s.findConnection enrollment.connectionId = some connection ∧
        (s.finishLogin wait).2 =
          (s.recordAttempt wait.ip wait.form.username true).showConsent wait.request.id
            connection.id enrollment.id (grantedScopes wait.request connection.scopes) := by
  rw [finishLogin]
  split
  · exact Or.inl (evolves_recordFailedLogin wait)
  · rename_i enrollment hverified
    split
    · exact Or.inl (Evolves.of_tracked rfl)
    · rename_i hproblem
      split
      · exact Or.inl (Evolves.refl mandate s)
      · rename_i connection hfind
        dsimp only
        split
        · exact Or.inl (Evolves.refl mandate s)
        · refine Or.inr ⟨enrollment, connection, ?_, hproblem, hfind, rfl⟩
          exact (Option.filter_eq_some_iff.mp hverified).1

theorem showConsent_requests (s : Server) (requestId connectionId enrollmentId : Id)
    (scopes : List McpScope) :
    (s.showConsent requestId connectionId enrollmentId scopes).requests =
      updateWhere s.requests (openRequest requestId) fun row =>
        { row with
          connectionId := some connectionId
          enrollmentId := some enrollmentId
          authenticatedAt := some s.now } := by
  rw [showConsent, markRequestAuthenticated]
  split <;> rfl

/-- What signing in leaves alone. -/
theorem showConsent_kept (s : Server) (requestId connectionId enrollmentId : Id)
    (scopes : List McpScope) :
    ∃ requests history, s.showConsent requestId connectionId enrollmentId scopes =
      { s with requests := requests, history := history } := by
  rw [showConsent, markRequestAuthenticated]
  split
  · exact ⟨_, _, rfl⟩
  · exact ⟨_, _, rfl⟩

theorem showConsent_history (s : Server) (requestId connectionId enrollmentId : Id)
    (scopes : List McpScope) :
    (s.showConsent requestId connectionId enrollmentId scopes).history =
      (if 0 < changes s.requests (openRequest requestId) then
        [.authenticated requestId enrollmentId connectionId] else []) ++
        .consentShown requestId connectionId scopes :: s.history := by
  rw [showConsent, markRequestAuthenticated]
  by_cases hopen : 0 < changes s.requests (openRequest requestId)
  · rw [if_pos hopen, if_pos (by exact hopen)]
    rfl
  · rw [if_neg hopen, if_neg (by exact hopen)]
    rfl

end SignIn

section Decision

/-- The tables once a code is issued and its enrollment, if it can be, reserved. -/
def issued (s : Server) (input : IssueCodeInput) : Server :=
  ((s.issueCode input).2.reserveEnrollment input.enrollmentId (s.codeRow input).id
    ((s.codeRow input).expiresAt + 30 * 1000)).2

/-- What `decide` has found by the time it issues a code: an approval, an enrollment with no
problem for this request, and the connection that the sign-in was for. -/
structure Approval (s : Server) (wait : DecideWait) (client : OAuthClientRow)
    (enrollment : EnrollmentRow) (connection : ConnectionRow) : Prop where
  approved : wait.decision = some "approve"
  enrollment_found : s.findEnrollmentById wait.enrollmentId = some enrollment
  noProblem : s.enrollmentProblem enrollment wait.request = none
  sameConnection : enrollment.connectionId = wait.connectionId
  connection_found : s.findConnection wait.connectionId = some connection

theorem evolves_deny (wait : DecideWait) : s.Evolves mandate (s.deny wait).2 := by
  have hcomplete : s.Evolves mandate (s.completeRequest wait.request.id).2 :=
    evolves_completeRequest _
  rw [deny]
  split
  · rename_i heq
    rw [heq] at hcomplete
    exact hcomplete
  · rename_i heq
    rw [heq] at hcomplete
    exact hcomplete

/-- After the reservation only the transaction is completed, so an approval evolves the tables
whichever of its writes finds its row changed. -/
theorem evolves_approveWith (wait : DecideWait) (client : OAuthClientRow)
    (enrollment : EnrollmentRow) (connection : ConnectionRow) :
    (s.issued (issueInput wait client enrollment connection)).Evolves mandate
      (s.approveWith wait client enrollment connection).2 := by
  simp only [approveWith]
  split
  · rename_i heq
    have hissued := congrArg Prod.snd heq
    exact Evolves.of_tracked (congrArg tracked hissued).symm
  · rename_i reserved heq
    have hissued : s.issued (issueInput wait client enrollment connection) = reserved :=
      congrArg Prod.snd heq
    rw [hissued]
    have hcomplete : reserved.Evolves mandate (reserved.completeRequest wait.request.id).2 :=
      evolves_completeRequest _
    split
    · rename_i heq
      rw [heq] at hcomplete
      exact hcomplete
    · rename_i heq
      rw [heq] at hcomplete
      exact hcomplete

/-- A decision evolves, or it issues a code for what the transaction asks. -/
theorem finishDecide_cases (mandate : Mandate) (wait : DecideWait)
    (client : Except OAuthError OAuthClientRow) :
    s.Evolves mandate (s.finishDecide wait client).2 ∨
      ∃ row enrollment connection, client = .ok row ∧
        s.Approval wait row enrollment connection ∧
        (s.issued (issueInput wait row enrollment connection)).Evolves mandate
          (s.finishDecide wait client).2 := by
  cases client with
  | error error => exact Or.inl (Evolves.refl mandate s)
  | ok row =>
      simp only [finishDecide]
      split
      · exact Or.inl (Evolves.refl mandate s)
      · rename_i enrollment henrollment
        split
        · exact Or.inl (evolves_deny wait)
        · rename_i happroved
          rw [approve]
          split
          · exact Or.inl (Evolves.refl mandate s)
          · rename_i hproblem
            split
            · exact Or.inl (Evolves.refl mandate s)
            · rename_i hconnection
              split
              · exact Or.inl (Evolves.refl mandate s)
              · rename_i connection hfind
                split
                · exact Or.inl (Evolves.refl mandate s)
                · refine Or.inr ⟨row, enrollment, connection, rfl, ?_,
                    evolves_approveWith wait row enrollment connection⟩
                  exact
                    { approved := Decidable.not_not.mp happroved
                      enrollment_found := henrollment
                      noProblem := hproblem
                      sameConnection := Decidable.not_not.mp hconnection
                      connection_found := hfind }

end Decision

section SetupPassword

/-- What a reset leaves alone. -/
theorem resetEnrollment_kept (s : Server) (enrollmentId : Id) (passwordHash : Secret)
    (expiresAt : Time) :
    ∃ history, s.resetEnrollment enrollmentId passwordHash expiresAt =
      { s with
        enrollments := updateWhere s.enrollments (fun row => row.id = enrollmentId)
          (s.resetRow passwordHash expiresAt)
        history := history } := by
  rw [resetEnrollment]
  cases s.findEnrollmentById enrollmentId with
  | none => exact ⟨_, rfl⟩
  | some row => exact ⟨_, rfl⟩

theorem resetEnrollment_history {enrollmentId : Id} {row : EnrollmentRow}
    (hfind : s.findEnrollmentById enrollmentId = some row) (passwordHash : Secret)
    (expiresAt : Time) :
    (s.resetEnrollment enrollmentId passwordHash expiresAt).history =
      .enrollmentReset enrollmentId row.connectionId :: s.history := by
  simp [resetEnrollment, hfind, record]

/-- When the new setup password of a pending issue expires. -/
def setupExpiry (s : Server) (pending : PendingIssue) : Time :=
  s.addSeconds (pending.setupCredentialTtlHours * 3600)

/-- A setup password that is hashed resets the enrollment it was begun with, or is the
first of a new enrollment; or its connection is gone. -/
theorem finishHash_cases (operation : IssueOperation) (pending : PendingIssue)
    (hoperation : pending.newUsername = true ↔ operation ≠ .reissue) :
    s.finishHash operation pending = s ∨
      (∃ previous, operation = .reissue ∧ pending.previous = some previous ∧
        s.finishHash operation pending =
          s.resetEnrollment previous.id pending.setupPassword (s.setupExpiry pending)) ∨
      ((∃ connection, s.findConnection pending.connectionId = some connection) ∧
        s.finishHash operation pending =
          (s.noted operation pending.connectionId).storeEnrollment pending.connectionId
            pending.username pending.setupPassword (s.setupExpiry pending)) := by
  obtain ⟨hfind, hnow⟩ : (s.noted operation pending.connectionId).findConnection
        pending.connectionId = s.findConnection pending.connectionId ∧
      (s.noted operation pending.connectionId).now = s.now := by
    cases operation <;> exact ⟨rfl, rfl⟩
  simp only [finishHash, finishIssue, setupExpiry, addSeconds, hnow]
  split
  · exact Or.inl rfl
  · rename_i issued heq
    split at heq
    · rename_i previous hnewUsername hprevious
      have hreissue : operation = .reissue := by
        by_contra hne
        simp [hoperation.mpr hne] at hnewUsername
      cases heq
      subst hreissue
      exact Or.inr (Or.inl ⟨previous, rfl, hprevious, rfl⟩)
    · simp only [issueEnrollment, hfind, Option.map_map, Option.map_eq_some_iff] at heq
      obtain ⟨connection, hconnection, heq⟩ := heq
      refine Or.inr (Or.inr ⟨⟨connection, hconnection⟩, ?_⟩)
      exact (congrArg Prod.snd heq).symm

end SetupPassword

end Server

end Mcp

end MailPanel
