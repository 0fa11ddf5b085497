import MailPanel.McpBarred

/-
The family of refresh tokens of a grant: one of them is live at a time, each is used
once, and a used one that comes again ends the grant.
-/

namespace MailPanel

namespace Mcp

open RowTable

/-- Neither used nor revoked. -/
def RefreshTokenRow.live (row : RefreshTokenRow) : Bool :=
  row.usedAt = none ∧ row.revokedAt = none

theorem RefreshTokenRow.GoesOn.live {old row : RefreshTokenRow}
    (h : RefreshTokenRow.GoesOn old row) (hlive : row.live = true) : old.live = true := by
  simp only [RefreshTokenRow.live, decide_eq_true_eq] at hlive ⊢
  constructor
  · by_contra hused
    exact h.2.1 hused hlive.1
  · by_contra hrevoked
    exact h.2.2 hrevoked hlive.2

namespace Server

variable {env : Env} {s t : Server}

/-- At most one refresh token of a grant is live, and ids are drawn before they are used. It is
the invariant behind rotation, kept by every step of the service. -/
structure FamilyKept (s : Server) : Prop where
  token_lt : ∀ row ∈ s.refreshTokens, row.id < s.nextId
  grant_lt : ∀ row ∈ s.refreshTokens, row.grantId < s.nextId
  nodup : (s.refreshTokens.map RefreshTokenRow.id).Nodup
  oneLive : ∀ left ∈ s.refreshTokens, ∀ right ∈ s.refreshTokens, left.live = true →
    right.live = true → left.grantId = right.grantId → left.id = right.id

/-- The refresh token with this id has been used. -/
structure Spent (s : Server) (tokenId : Id) : Prop where
  drawn : tokenId < s.nextId
  used : ∀ row ∈ s.refreshTokens, row.id = tokenId → row.usedAt ≠ none

theorem FamilyKept.tokensGoOn (hs : s.FamilyKept) (h : s.TokensGoOn t) : t.FamilyKept where
  token_lt := by
    apply h.tokens.key_lt RefreshTokenRow.id _ (fun _ => False.elim) h.nextId_le hs.token_lt
    intro old row hgoesOn
    rw [hgoesOn.1]
  grant_lt := by
    apply h.tokens.key_lt RefreshTokenRow.grantId _ (fun _ => False.elim) h.nextId_le
      hs.grant_lt
    intro old row hgoesOn
    rw [hgoesOn.1]
  nodup := hs.nodup.sublist h.ids
  oneLive := by
    intro left hleft right hright hleftLive hrightLive hgrant
    rcases h.tokens left hleft with ⟨old, hold, hgoesOn⟩ | hfalse
    · rcases h.tokens right hright with ⟨other, hother, hgoesOn'⟩ | hfalse
      · rw [hgoesOn.1, hgoesOn'.1] at hgrant ⊢
        exact hs.oneLive old hold other hother (hgoesOn.live hleftLive)
          (hgoesOn'.live hrightLive) hgrant
      · exact hfalse.elim
    · exact hfalse.elim

theorem Spent.tokensGoOn {tokenId : Id} (hs : s.Spent tokenId) (h : s.TokensGoOn t) :
    t.Spent tokenId where
  drawn := Nat.lt_of_lt_of_le hs.drawn h.nextId_le
  used := by
    apply h.tokens.forall _ (fun _ => False.elim) hs.used
    intro old row hgoesOn hold hid
    exact hgoesOn.2.1 (hold (by rw [hgoesOn.1] at hid; exact hid))

/-- A new refresh token for a grant that has no live one. The old token was used in the same
segment, so the new one is the only live one of its family. -/
theorem FamilyKept.minted (hs : s.FamilyKept) {row : RefreshTokenRow}
    (hle : s.nextId ≤ row.id) (hlt : row.id < t.nextId) (hgrant : row.grantId < t.nextId)
    (htokens : t.refreshTokens = s.refreshTokens ++ [row])
    (hnone : ∀ old ∈ s.refreshTokens, old.grantId = row.grantId → old.live = false) :
    t.FamilyKept := by
  have hmem : ∀ other ∈ t.refreshTokens, other ∈ s.refreshTokens ∨ other = row := by
    intro other hother
    rw [htokens] at hother
    rcases List.mem_append.mp hother with hold | hnew
    · exact Or.inl hold
    · exact Or.inr (List.mem_singleton.mp hnew)
  have hnextId : s.nextId ≤ t.nextId := Nat.le_trans hle (Nat.le_of_lt hlt)
  exact
    { token_lt := by
        intro other hother
        rcases hmem other hother with hold | rfl
        · exact Nat.lt_of_lt_of_le (hs.token_lt other hold) hnextId
        · exact hlt
      grant_lt := by
        intro other hother
        rcases hmem other hother with hold | rfl
        · exact Nat.lt_of_lt_of_le (hs.grant_lt other hold) hnextId
        · exact hgrant
      nodup := by
        rw [htokens, List.map_append]
        refine List.nodup_append.mpr ⟨hs.nodup, by simp, ?_⟩
        intro old hold new hnew heq
        obtain ⟨other, hother, rfl⟩ := List.mem_map.mp hold
        rw [List.map_cons, List.map_nil, List.mem_singleton] at hnew
        have hlt : other.id < row.id := Nat.lt_of_lt_of_le (hs.token_lt other hother) hle
        rw [heq, hnew] at hlt
        exact absurd hlt (Nat.lt_irrefl _)
      oneLive := by
        intro left hleft right hright hleftLive hrightLive hsame
        rcases hmem left hleft with hleft | rfl
        · rcases hmem right hright with hright | rfl
          · exact hs.oneLive left hleft right hright hleftLive hrightLive hsame
          · rw [hnone left hleft hsame] at hleftLive
            cases hleftLive
        · rcases hmem right hright with hright | rfl
          · rw [hnone right hright hsame.symm] at hrightLive
            cases hrightLive
          · rfl }

theorem Spent.minted {tokenId : Id} (hs : s.Spent tokenId) {row : RefreshTokenRow}
    (hle : s.nextId ≤ row.id) (hnextId : s.nextId ≤ t.nextId)
    (htokens : t.refreshTokens = s.refreshTokens ++ [row]) : t.Spent tokenId where
  drawn := Nat.lt_of_lt_of_le hs.drawn hnextId
  used := by
    intro other hother hid
    rw [htokens] at hother
    rcases List.mem_append.mp hother with hold | hnew
    · exact hs.used other hold hid
    · have hlt : tokenId < row.id := Nat.lt_of_lt_of_le hs.drawn hle
      rw [← hid, List.mem_singleton.mp hnew] at hlt
      exact absurd hlt (Nat.lt_irrefl _)

/- The two steps that mint -/

/-- The refresh token of a new grant. -/
def firstRefresh (s : Server) : RefreshTokenRow :=
  ⟨s.nextId + 3, s.nextId + 4, s.nextId, none, s.now,
    s.addSeconds (s.settings.refreshTokenTtlDays * 86400), none, none⟩

theorem grantCode_tokens (s : Server) (client : OAuthClientRow) (code : AuthorizationCodeRow)
    (scopes : List McpScope) (codeVerifier : String) :
    (s.grantCode client code scopes codeVerifier).2.refreshTokens =
        s.refreshTokens ++ [s.firstRefresh] ∧
      (s.grantCode client code scopes codeVerifier).2.nextId = s.nextId + 5 :=
  ⟨rfl, rfl⟩

/-- The successor of a used refresh token. -/
def nextRefresh (s : Server) (token : RefreshTokenRow) (grant : GrantRow) : RefreshTokenRow :=
  ⟨s.nextId + 2, s.nextId + 3, grant.id, some token.id, s.now,
    s.addSeconds (s.settings.refreshTokenTtlDays * 86400), none, none⟩

theorem refreshed_tokens (s : Server) (token : RefreshTokenRow) (grant : GrantRow)
    (scopes : List McpScope) :
    (s.refreshed token grant scopes).refreshTokens =
        (s.markRefreshTokenUsed token.id).2.refreshTokens ++ [s.nextRefresh token grant] ∧
      (s.refreshed token grant scopes).nextId = s.nextId + 4 :=
  ⟨rfl, rfl⟩

theorem FamilyKept.grantCode (hs : s.FamilyKept) (client : OAuthClientRow)
    (code : AuthorizationCodeRow) (scopes : List McpScope) (codeVerifier : String) :
    (s.grantCode client code scopes codeVerifier).2.FamilyKept := by
  obtain ⟨htokens, hnextId⟩ := grantCode_tokens s client code scopes codeVerifier
  have hgrant : s.firstRefresh.grantId = s.nextId := rfl
  apply hs.minted (Nat.le_add_right s.nextId 3) _ _ htokens
  · intro old hold hsame
    have hlt := hs.grant_lt old hold
    rw [hsame, hgrant] at hlt
    exact absurd hlt (Nat.lt_irrefl _)
  · rw [hnextId]
    exact Nat.lt_succ_of_lt (Nat.lt_succ_self (s.nextId + 3))
  · rw [hnextId, hgrant]
    exact Nat.lt_add_of_pos_right (by omega)

theorem refreshRefusal_none {input : RefreshInput} {token : RefreshTokenRow}
    {grant : GrantRow} (haccepted : s.refreshRefusal input token grant = none) :
    token.revokedAt = none ∧ grant.revokedAt = none := by
  rw [refreshRefusal] at haccepted
  split at haccepted
  · cases haccepted
  · rename_i hlive
    rw [not_or, Decidable.not_not, Decidable.not_not] at hlive
    exact hlive

theorem Refreshing.mem {input : RefreshInput} {token : RefreshTokenRow} {grant : GrantRow}
    {scopes : List McpScope} (h : s.Refreshing input token grant scopes) :
    token ∈ s.refreshTokens := by
  obtain ⟨tokenHash, -, hfind⟩ := h.presented
  exact mem_of_lookup hfind

theorem Refreshing.live {input : RefreshInput} {token : RefreshTokenRow} {grant : GrantRow}
    {scopes : List McpScope} (h : s.Refreshing input token grant scopes) :
    token.live = true := by
  simp [RefreshTokenRow.live, h.unused, (refreshRefusal_none h.accepted).1]

theorem usable_of_live {id : Id} {row : RefreshTokenRow} (hid : row.id = id)
    (hlive : row.live = true) : usable id row = true := by
  simp only [RefreshTokenRow.live, decide_eq_true_eq] at hlive
  simp [usable, hid, hlive]

/-- Marking the token used leaves its grant without a live one. -/
theorem FamilyKept.marked (hs : s.FamilyKept) {token : RefreshTokenRow}
    (hmem : token ∈ s.refreshTokens) (hlive : token.live = true) :
    ∀ row ∈ (s.markRefreshTokenUsed token.id).2.refreshTokens,
      row.grantId = token.grantId → row.live = false := by
  intro row hrow hgrant
  by_contra hrowLive
  have hrowLive : row.live = true := by simpa using hrowLive
  rcases mem_updateWhere.mp hrow with ⟨hold, hcondition⟩ | ⟨old, -, -, rfl⟩
  · have hid := hs.oneLive row hold token hmem hrowLive hlive hgrant
    rw [usable_of_live hid hrowLive] at hcondition
    cases hcondition
  · simp [RefreshTokenRow.live] at hrowLive

theorem FamilyKept.refreshed (hs : s.FamilyKept) {input : RefreshInput}
    {token : RefreshTokenRow} {grant : GrantRow} {scopes : List McpScope}
    (h : s.Refreshing input token grant scopes) :
    (s.refreshed token grant scopes).FamilyKept := by
  obtain ⟨htokens, hnextId⟩ := refreshed_tokens s token grant scopes
  have hgrantId : grant.id = token.grantId := key_of_lookup h.grant_found
  have hgrant : (s.nextRefresh token grant).grantId = token.grantId := hgrantId
  have hlt : token.grantId < s.nextId := hs.grant_lt token h.mem
  have hmarked := hs.tokensGoOn (quiet_markRefreshTokenUsed token.id).toTokensGoOn
  have hle : s.nextId ≤ (s.nextRefresh token grant).id := Nat.le_add_right s.nextId 2
  have hid : (s.nextRefresh token grant).id < s.nextId + 4 :=
    Nat.lt_succ_of_lt (Nat.lt_succ_self (s.nextId + 2))
  apply hmarked.minted hle _ _ htokens
  · intro old hold hsame
    exact hs.marked h.mem h.live old hold (hsame.trans hgrant)
  · rw [hnextId]
    exact hid
  · rw [hnextId, hgrant]
    exact Nat.lt_add_right 4 hlt

/-- The token of a successful refresh is spent: it is marked as used before the new one is
stored, and nothing unmarks it. -/
theorem Refreshing.spent (hs : s.FamilyKept) {input : RefreshInput}
    {token : RefreshTokenRow} {grant : GrantRow} {scopes : List McpScope}
    (h : s.Refreshing input token grant scopes) :
    (s.refreshed token grant scopes).Spent token.id := by
  obtain ⟨htokens, hnextId⟩ := refreshed_tokens s token grant scopes
  have hmarked : (s.markRefreshTokenUsed token.id).2.Spent token.id :=
    { drawn := hs.token_lt token h.mem
      used := by
        intro row hrow hrowId
        rcases mem_updateWhere.mp hrow with ⟨hold, hcondition⟩ | ⟨old, -, -, rfl⟩
        · have hsame : row = token := eq_of_key_eq hs.nodup hold h.mem hrowId
          rw [hsame, usable_of_live rfl h.live] at hcondition
          cases hcondition
        · exact Option.some_ne_none s.now }
  have hle : s.nextId ≤ (s.nextRefresh token grant).id := Nat.le_add_right s.nextId 2
  apply hmarked.minted hle _ htokens
  rw [hnextId]
  exact Nat.le_add_right s.nextId 4

theorem answerToken_refresh (env : Env) (client : OAuthClientRow) {form : TokenForm}
    (hgrantType : form.grantType = some "refresh_token") :
    s.answerToken env client form =
      if "refresh_token" ∉ client.grantTypes then
        (.error ⟨"unauthorized_client", "This client may not use refresh tokens.", 400⟩, s)
      else s.refresh ⟨client, form.refreshToken, form.scope, form.resource⟩ := by
  simp [answerToken, hgrantType]

theorem Spent.grantCode {tokenId : Id} (hs : s.Spent tokenId) (client : OAuthClientRow)
    (code : AuthorizationCodeRow) (scopes : List McpScope) (codeVerifier : String) :
    (s.grantCode client code scopes codeVerifier).2.Spent tokenId := by
  obtain ⟨htokens, hnextId⟩ := grantCode_tokens s client code scopes codeVerifier
  apply hs.minted (Nat.le_add_right s.nextId 3) _ htokens
  rw [hnextId]
  exact Nat.le_add_right s.nextId 5

theorem Spent.refreshed {tokenId : Id} (hs : s.Spent tokenId) (token : RefreshTokenRow)
    (grant : GrantRow) (scopes : List McpScope) :
    (s.refreshed token grant scopes).Spent tokenId := by
  obtain ⟨htokens, hnextId⟩ := refreshed_tokens s token grant scopes
  have hmarked := hs.tokensGoOn (quiet_markRefreshTokenUsed token.id).toTokensGoOn
  have hle : s.nextId ≤ (s.nextRefresh token grant).id := Nat.le_add_right s.nextId 2
  apply hmarked.minted hle _ htokens
  rw [hnextId]
  exact Nat.le_add_right s.nextId 4

end Server

namespace System

variable {env : Env} {system : System} {label : Label} {server : Server}

theorem Minted.familyKept (hs : system.server.Curbed) (hfamily : system.server.FamilyKept)
    (h : Minted env system label server) : server.FamilyKept := by
  cases h with
  | none hcurbs => exact hfamily.tokensGoOn (hcurbs hs).1.toTokensGoOn
  | @granted client _ code codeVerifier scopes _ =>
      have hredeemed := hfamily.tokensGoOn (Server.quiet_redeemed code).toTokensGoOn
      exact hredeemed.grantCode client code scopes codeVerifier
  | refreshed hrefreshing _ _ => exact hfamily.refreshed hrefreshing

theorem Minted.spent {tokenId : Id} (hs : system.server.Curbed)
    (hspent : system.server.Spent tokenId) (h : Minted env system label server) :
    server.Spent tokenId := by
  cases h with
  | none hcurbs => exact hspent.tokensGoOn (hcurbs hs).1.toTokensGoOn
  | @granted client _ code codeVerifier scopes _ =>
      have hredeemed := hspent.tokensGoOn (Server.quiet_redeemed code).toTokensGoOn
      exact hredeemed.grantCode client code scopes codeVerifier
  | refreshed _ _ _ => exact hspent.refreshed _ _ _

theorem Reachable.familyKept (hreachable : Reachable env system) :
    system.server.FamilyKept := by
  obtain ⟨settings, vaultKeyId, now, labels, rfl⟩ := hreachable
  have hstart : (System.initial settings vaultKeyId now).server.FamilyKept := by
    constructor <;> simp [System.initial, Server.initial]
  have hrun := StepRun.invariant_of_run (System.step env)
    (fun system => Reachable env system ∧ system.server.FamilyKept)
    (fun system label h => ⟨h.1.step label,
      (step_minted env system label).familyKept h.1.curbed.2 h.2⟩)
    labels ⟨⟨settings, vaultKeyId, now, [], rfl⟩, hstart⟩
  exact hrun.2

/-- The refresh token that a step uses for a successful refresh. -/
def refreshedToken (env : Env) (system : System) : Label → Option RefreshTokenRow
  | .resume index .done =>
      match system.tasks[index]? with
      | some (.resolvingClient (.resolved resolved) (.token presented form)) =>
          match Server.finishAuthenticate presented resolved, form.grantType, form.refreshToken with
          | .ok client, some "refresh_token", some tokenHash =>
              match (system.server.answerToken env client form).1 with
              | .ok _ => system.server.findRefreshTokenByHash tokenHash
              | .error _ => none
          | _, _, _ => none
      | _ => none
  | _ => none

theorem refreshedToken_eq_some {token : RefreshTokenRow}
    (h : refreshedToken env system label = some token) :
    ∃ input grant scopes, system.server.Refreshing input token grant scopes ∧
      (system.step env label).server = system.server.refreshed token grant scopes := by
  unfold refreshedToken at h
  split at h
  · rename_i index
    split at h
    · rename_i resolved presented form htask
      split at h
      · rename_i client tokenHash hauthenticated hgrantType hhash
        have hstep : (system.step env (.resume index .done)).server =
            (system.server.answerToken env client form).2 := by
          simp [System.step, htask, Server.proceed, Server.continueWith, hauthenticated]
        split at h
        · rename_i response hanswer
          rw [hstep]
          rw [Server.answerToken_refresh env client hgrantType] at hanswer ⊢
          split at hanswer
          · cases hanswer
          · rename_i hallowed
            rw [if_neg hallowed]
            have houtcome := Server.refresh_outcome system.server
              ⟨client, form.refreshToken, form.scope, form.resource⟩
            generalize system.server.refresh _ = result at houtcome hanswer ⊢
            cases houtcome with
            | refused error => cases hanswer
            | replayed error _ _ _ _ => cases hanswer
            | raced error _ _ => cases hanswer
            | @refreshed _ found grant scopes hrefreshing =>
                obtain ⟨hash, hpresented, hfound⟩ := hrefreshing.presented
                have hsame : found = token := by
                  rw [hhash] at hpresented
                  cases hpresented
                  rw [h] at hfound
                  exact (Option.some.inj hfound).symm
                rw [← hsame]
                exact ⟨_, grant, scopes, hrefreshing, rfl⟩
        · cases h
      · cases h
    · cases h
  · cases h

/-- The step uses this refresh token for a successful refresh. -/
def consumes (env : Env) (tokenId : Id) (system : System) (label : Label) : Bool :=
  (refreshedToken env system label).any fun token => token.id = tokenId

theorem consumes_refreshing {tokenId : Id}
    (h : consumes env tokenId system label = true) :
    ∃ input token grant scopes, token.id = tokenId ∧
      system.server.Refreshing input token grant scopes ∧
      (system.step env label).server = system.server.refreshed token grant scopes := by
  obtain ⟨token, htoken, hid⟩ := (Option.any_eq_true _ _).mp h
  obtain ⟨input, grant, scopes, hrefreshing, hserver⟩ := refreshedToken_eq_some htoken
  exact ⟨input, token, grant, scopes, by simpa using hid, hrefreshing, hserver⟩

/-- A spent refresh token serves no refresh. -/
theorem Spent.consumes_eq_false {tokenId : Id} (hspent : system.server.Spent tokenId)
    (label : Label) : consumes env tokenId system label = false := by
  by_contra hconsumes
  have hconsumes : consumes env tokenId system label = true := by simpa using hconsumes
  obtain ⟨_, token, _, _, hid, hrefreshing, -⟩ := consumes_refreshing hconsumes
  exact hspent.used token hrefreshing.mem hid hrefreshing.unused

theorem Reachable.consumes_le_one (hreachable : Reachable env system) (tokenId : Id)
    (labels : List Label) :
    StepRun.occurrences (System.step env) (consumes env tokenId) system labels ≤ 1 := by
  apply StepRun.occurrences_le_one (System.step env) (Reachable env)
    (fun system => Reachable env system ∧ system.server.Spent tokenId) _ _ _ labels hreachable
  · exact fun _ label h => h.step label
  · intro system label h hconsumes
    obtain ⟨_, token, grant, scopes, hid, hrefreshing, hserver⟩ := consumes_refreshing hconsumes
    refine ⟨h.step label, ?_⟩
    rw [hserver, ← hid]
    exact hrefreshing.spent h.familyKept
  · intro system label h
    exact ⟨Spent.consumes_eq_false h.2 label, h.1.step label,
      (step_minted env system label).spent h.1.curbed.2 h.2⟩

/-- The request that the label resumes presents a used refresh token, as the client of
its grant. -/
structure Replays (system : System) (index : Nat) (client : OAuthClientRow)
    (form : TokenForm) (token : RefreshTokenRow) (grant : GrantRow) : Prop where
  authenticated : ∃ resolved presented, system.tasks[index]? =
      some (.resolvingClient (.resolved resolved) (.token presented form)) ∧
    Server.finishAuthenticate presented resolved = .ok client
  grantType : form.grantType = some "refresh_token"
  found : ∃ tokenHash, form.refreshToken = some tokenHash ∧
    system.server.findRefreshTokenByHash tokenHash = some token
  used : token.usedAt ≠ none
  grant_found : system.server.findGrant token.grantId = some grant
  client : grant.clientId = client.clientId

/-- No access token and no refresh token of the grant is accepted. -/
def Extinct (env : Env) (system : System) (grantId : Id) : Prop :=
  (∀ path authorization context,
    (system.server.verify path authorization).1 = .ok context → context.grantId ≠ grantId) ∧
  ∀ label token, refreshedToken env system label = some token → token.grantId ≠ grantId

theorem extinct_of_revoked {grantId : Id}
    (hrevoked : ∀ row ∈ system.server.grants, row.id = grantId → row.revokedAt ≠ none) :
    Extinct env system grantId := by
  constructor
  · intro path authorization context hverify hgrant
    obtain ⟨_, -, _, _, grant, _, haccepted⟩ := Server.verify_ok hverify
    refine hrevoked grant haccepted.grant_mem ?_ haccepted.grant_live
    rw [← haccepted.context_grant, hgrant]
  · intro label token htoken hgrant
    obtain ⟨_, grant, _, hrefreshing, -⟩ := refreshedToken_eq_some htoken
    have hfound := hrefreshing.grant_found
    refine hrevoked grant (mem_of_lookup hfound) ?_
      (Server.refreshRefusal_none hrefreshing.accepted).2
    rw [key_of_lookup hfound, hgrant]

theorem Replays.revokes {index : Nat} {client : OAuthClientRow} {form : TokenForm}
    {token : RefreshTokenRow} {grant : GrantRow}
    (h : Replays system index client form token grant)
    (hallowed : "refresh_token" ∈ client.grantTypes) :
    (system.step env (.resume index .done)).server =
      system.server.revokeGrant grant.id "refresh token replay detected" := by
  obtain ⟨⟨resolved, presented, htask, hauthenticated⟩, hgrantType, ⟨tokenHash, hhash, hfind⟩,
    hused, hgrant, hclient⟩ := h
  have hanswer : (system.server.answerToken env client form).2 =
      system.server.revokeGrant grant.id "refresh token replay detected" := by
    rw [Server.answerToken_refresh env client hgrantType, if_neg (not_not_intro hallowed)]
    simp [Server.refresh, hhash, hfind, hgrant, hclient, hused]
  simp [System.step, htask, Server.proceed, Server.continueWith, hauthenticated, hanswer]

/-- A replay by a client that may refresh ends the grant for good. -/
theorem Replays.extinct (hreachable : Reachable env system) {index : Nat}
    {client : OAuthClientRow} {form : TokenForm} {token : RefreshTokenRow} {grant : GrantRow}
    (h : Replays system index client form token grant)
    (hallowed : "refresh_token" ∈ client.grantTypes) (later : List Label) :
    Extinct env (run env (system.step env (.resume index .done)) later) grant.id := by
  have hsystem := hreachable.curbed.1
  have hserver : (system.step env (.resume index .done)).server = _ := h.revokes hallowed
  apply extinct_of_revoked
  apply (hsystem.step (.resume index .done)).grant_revoked_run
  · rw [hserver]
    exact hsystem.server.grant_lt grant (mem_of_lookup h.grant_found)
  · rw [hserver]
    exact Server.revokeGrant_revoked grant.id _

/-- One live refresh token for each grant, one refresh for each token, and an end to the grant
whose used token comes again. The first is an invariant of every reachable state, the second
counts over whole runs, and the third reaches from the replay to every state after it. -/
theorem refreshTokens_keepFamily (hreachable : Reachable env system) :
    (∀ grantId, (system.server.refreshTokens.countP fun row =>
      row.grantId = grantId ∧ row.usedAt = none ∧ row.revokedAt = none) ≤ 1) ∧
    (∀ tokenId labels, StepRun.occurrences (System.step env) (consumes env tokenId) system
      labels ≤ 1) ∧
    ∀ index client form token grant, Replays system index client form token grant →
      "refresh_token" ∈ client.grantTypes → ∀ later,
        Extinct env (run env (system.step env (.resume index .done)) later) grant.id := by
  refine ⟨?_, hreachable.consumes_le_one, ?_⟩
  · intro grantId
    have hfamily := hreachable.familyKept
    apply countP_le_one hfamily.nodup
    intro left hleft right hright hleftLive hrightLive
    simp only [decide_eq_true_eq] at hleftLive hrightLive
    apply hfamily.oneLive left hleft right hright
    · simp [RefreshTokenRow.live, hleftLive]
    · simp [RefreshTokenRow.live, hrightLive]
    · rw [hleftLive.1, hrightLive.1]
  · intro index client form token grant hreplays hallowed later
    exact hreplays.extinct hreachable hallowed later

end System

/- A client with a metadata document -/

namespace OneConnection

def documentId : String := "https://app.example/client"

/-- The document lists these grant types, and may be cached for a minute. -/
def document (grantTypes : List String) : Except String ClientMetadata :=
  .ok ⟨"App", [redirectUri], some grantTypes, some 60⟩

/-- The owner's form for transaction 5, whose CSRF token is 6. -/
def documentForm : AuthorizeForm := ⟨some 5, some 6, some 2, some 3, some "approve"⟩

def present (form : TokenForm) : List Label :=
  [.request (.token ⟨.absent, some documentId, none⟩ form)]

def refreshForm (token : Secret) : TokenForm :=
  ⟨some "refresh_token", none, none, none, some token, none, none⟩

/-- The owner approves the client, which redeems its code and refreshes once. -/
def refreshedOnce : List Label :=
  prepared.take 3 ++
    [Label.request (.start [("response_type", "code"), ("client_id", documentId),
      ("code_challenge", codeChallenge), ("code_challenge_method", "S256")]),
    .resume 0 (.document (document ["authorization_code", "refresh_token"])),
    .resume 0 .done,
    .request (.login documentForm (some 5) (some "192.0.2.1")),
    .resume 0 .done,
    .resume 0 .done,
    .request (.decide documentForm (some 5)),
    .resume 0 .done] ++
    present (tokenForm 8 (some codeVerifier)) ++ [Label.resume 0 .done] ++
    present (refreshForm 13) ++ [Label.resume 0 .done]

/-- The used token comes again, a minute later. -/
def replay (grantTypes : List String) : System :=
  System.run env start (refreshedOnce ++ [Label.advance 60000] ++ present (refreshForm 13) ++
    [Label.resume 0 (.document (document grantTypes))])

theorem replay_reachable (grantTypes : List String) :
    System.Reachable env (replay grantTypes) :=
  ⟨settings, some "k1", 1000, _, rfl⟩

def documentClient (grantTypes : List String) : OAuthClientRow :=
  ⟨documentId, .cimd, some "App", [redirectUri], grantTypes, .none, none, some 121000, 1000⟩

def usedToken : RefreshTokenRow :=
  ⟨12, 13, 9, none, 1000, 2592001000, some 1000, none⟩

def documentGrant : GrantRow :=
  ⟨9, 1, documentId, some "App", redirectUri, [.mailRead],
    "https://mcp.example.com/mcp/c00000000000000000000000001", 1000, some 1000, none, none⟩

theorem replay_state {grantTypes : List String}
    (hgrantTypes : grantTypes = ["authorization_code"] ∨
      grantTypes = ["authorization_code", "refresh_token"]) :
    (replay grantTypes).tasks[0]? =
        some (.resolvingClient (.resolved (.ok (documentClient grantTypes)))
          (.token ⟨none, false⟩ (refreshForm 13))) ∧
      (replay grantTypes).server.findRefreshTokenByHash 13 = some usedToken ∧
      (replay grantTypes).server.findGrant usedToken.grantId = some documentGrant := by
  rcases hgrantTypes with rfl | rfl
  · decide
  · decide

theorem replay_replays {grantTypes : List String}
    (hgrantTypes : grantTypes = ["authorization_code"] ∨
      grantTypes = ["authorization_code", "refresh_token"]) :
    System.Replays (replay grantTypes) 0 (documentClient grantTypes) (refreshForm 13)
      usedToken documentGrant where
  authenticated :=
    ⟨.ok (documentClient grantTypes), ⟨none, false⟩, (replay_state hgrantTypes).1, rfl⟩
  grantType := rfl
  found := ⟨13, rfl, (replay_state hgrantTypes).2.1⟩
  used := by decide
  grant_found := (replay_state hgrantTypes).2.2
  client := rfl

/-- A client that may refresh presents a used token: no later state has a live grant of that
family, whatever comes next. -/
theorem replay_ends_grant :
    System.Extinct env (System.run env ((replay ["authorization_code", "refresh_token"]).step
      env (.resume 0 .done)) []) documentGrant.id := by
  obtain ⟨-, -, hreplay⟩ := System.refreshTokens_keepFamily
    (replay_reachable ["authorization_code", "refresh_token"])
  exact hreplay 0 _ _ usedToken documentGrant (replay_replays (Or.inr rfl)) (by decide) []

def reader : McpAuthContext :=
  ⟨1, 0, "owner@example.com", 9, documentId, [.mailRead], []⟩

/-- A client whose document no longer lists `refresh_token` is refused before its token is
looked up, so that the replay leaves the family alone. -/
theorem replay_without_refresh_grant :
    ¬ ∀ env system, System.Reachable env system → ∀ index client form token grant,
      System.Replays system index client form token grant →
        system.server.now < token.expiresAt → ∀ later,
          System.Extinct env (System.run env (system.step env (.resume index .done)) later)
            grant.id := by
  intro hclaim
  have hstill : (replay ["authorization_code"]).server.now < usedToken.expiresAt ∧
      ((System.run env ((replay ["authorization_code"]).step env (.resume 0 .done)) []).server.verify
        path (.token 15)).1 = .ok reader := by
    decide
  have hextinct := hclaim env (replay ["authorization_code"]) (replay_reachable _) 0 _ _
    usedToken documentGrant (replay_replays (Or.inl rfl)) hstill.1 []
  exact hextinct.1 path (.token 15) reader hstill.2 rfl

end OneConnection

end Mcp

end MailPanel
