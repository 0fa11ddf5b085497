import MailPanel.McpSteps

/-
What most steps leave alone besides: the mailboxes with their credentials, and the
refresh tokens, which end but are not minted.
-/

namespace MailPanel

namespace Mcp

open RowTable

/-- What may become of a stored refresh token: it may come to be used or revoked, and neither is
ever undone. All its other fields stay. -/
def RefreshTokenRow.GoesOn (old row : RefreshTokenRow) : Prop :=
  row = { old with usedAt := row.usedAt, revokedAt := row.revokedAt } ∧
    (old.usedAt ≠ none → row.usedAt ≠ none) ∧ (old.revokedAt ≠ none → row.revokedAt ≠ none)

theorem RefreshTokenRow.GoesOn.refl (row : RefreshTokenRow) : RefreshTokenRow.GoesOn row row :=
  ⟨rfl, fun h => h, fun h => h⟩

theorem RefreshTokenRow.GoesOn.trans (first second third : RefreshTokenRow)
    (hfirst : RefreshTokenRow.GoesOn first second)
    (hsecond : RefreshTokenRow.GoesOn second third) : RefreshTokenRow.GoesOn first third := by
  refine ⟨?_, hsecond.2.1 ∘ hfirst.2.1, hsecond.2.2 ∘ hfirst.2.2⟩
  rw [hsecond.1, hfirst.1]

namespace Server

variable {s t u : Server}

/-- Refresh tokens are used, revoked or purged, and no new one appears. -/
structure TokensGoOn (s t : Server) : Prop where
  nextId_le : s.nextId ≤ t.nextId
  tokens : Continues RefreshTokenRow.GoesOn (fun _ => False) s.refreshTokens t.refreshTokens
  ids : (t.refreshTokens.map RefreshTokenRow.id).Sublist
    (s.refreshTokens.map RefreshTokenRow.id)

/-- A step that leaves the table alone satisfies this, as long as the counter of ids does not go
back. -/
theorem TokensGoOn.of_eq (hle : s.nextId ≤ t.nextId)
    (heq : t.refreshTokens = s.refreshTokens) : s.TokensGoOn t where
  nextId_le := hle
  tokens := by
    rw [heq]
    exact Continues.refl RefreshTokenRow.GoesOn.refl _
  ids := by rw [heq]

/-- Several steps in a row satisfy it when each does, which is how a run is put together. -/
theorem TokensGoOn.trans (hfirst : s.TokensGoOn t) (hsecond : t.TokensGoOn u) :
    s.TokensGoOn u where
  nextId_le := Nat.le_trans hfirst.nextId_le hsecond.nextId_le
  tokens := Continues.trans RefreshTokenRow.GoesOn.trans (fun _ _ h _ => h) (fun _ h => h)
    hfirst.tokens hsecond.tokens
  ids := hsecond.ids.trans hfirst.ids

/-- No grant of the connection is live, so that no token of it is accepted any more. -/
def CutOff (s : Server) (connectionId : Id) : Prop :=
  ∀ row ∈ s.grants, row.connectionId = connectionId → row.revokedAt ≠ none

/-- The connection stays with its mailbox, and its revocation cuts it off. -/
def StaysBound (t : Server) (old row : ConnectionRow) : Prop :=
  row.id = old.id ∧ row.bindingId = old.bindingId ∧
    (row.state = .revoked → old.state = .revoked ∨ t.CutOff row.id)

/-- Grants and refresh tokens end, and none is new. This is what every step does but the two
that issue tokens. -/
structure Withdraws (s t : Server) : Prop extends s.TokensGoOn t where
  grants : Continues GrantRow.GoesOn (fun _ => False) s.grants t.grants
  connections : Continues t.StaysBound
    (fun row => DrawnBetween s t row.id ∧ (row.state = .revoked → t.CutOff row.id))
    s.connections t.connections

/-- Besides, mailboxes and their credentials stay as they are. Most of the service's steps are
of this kind. -/
structure Quiet (s t : Server) : Prop extends s.Withdraws t where
  bindings : t.bindings = s.bindings
  credentials : t.credentials = s.credentials

theorem StaysBound.refl (row : ConnectionRow) : s.StaysBound row row :=
  ⟨rfl, rfl, Or.inl⟩

/-- A connection that is cut off stays so under steps that add no grant, since an ended grant
does not come back. -/
theorem CutOff.goesOn {connectionId : Id} (hcut : s.CutOff connectionId)
    (hgrants : Continues GrantRow.GoesOn (fun _ => False) s.grants t.grants) :
    t.CutOff connectionId := by
  apply hgrants.forall _ (fun _ => False.elim) hcut
  intro old row hgoesOn hold hconnection
  exact hgoesOn.2 (hold (by rw [hgoesOn.1] at hconnection; exact hconnection))

theorem Withdraws.trans (hfirst : s.Withdraws t) (hsecond : t.Withdraws u) :
    s.Withdraws u where
  toTokensGoOn := hfirst.toTokensGoOn.trans hsecond.toTokensGoOn
  grants := Continues.trans GrantRow.GoesOn.trans (fun _ _ h _ => h) (fun _ h => h)
    hfirst.grants hsecond.grants
  connections := by
    intro row hrow
    rcases hsecond.connections row hrow with ⟨middle, hmiddle, hid, hbinding, hrevoked⟩ | hnew
    · have hcut : t.CutOff middle.id → u.CutOff row.id := by
        intro hcut
        rw [hid]
        exact hcut.goesOn hsecond.grants
      rcases hfirst.connections middle hmiddle with ⟨old, hold, hid', hbinding', hrevoked'⟩ |
        ⟨hdrawn, hrevoked'⟩
      · refine Or.inl ⟨old, hold, hid.trans hid', hbinding.trans hbinding', ?_⟩
        intro hstate
        rcases hrevoked hstate with hstate | hcutOff
        · exact (hrevoked' hstate).imp (fun h => h) hcut
        · exact Or.inr hcutOff
      · refine Or.inr ⟨?_, ?_⟩
        · rw [hid]
          exact hdrawn.left hsecond.nextId_le
        · intro hstate
          rcases hrevoked hstate with hstate | hcutOff
          · exact hcut (hrevoked' hstate)
          · exact hcutOff
    · exact Or.inr ⟨hnew.1.right hfirst.nextId_le, hnew.2⟩

/-- The tables that such a step has to account for; a step that leaves all of them alone is
withdrawing at once. -/
def frame (s : Server) := (s.connections, s.grants, s.refreshTokens)

/-- Steps on other tables withdraw nothing and add nothing. -/
theorem Withdraws.of_frame (hle : s.nextId ≤ t.nextId) (hframe : t.frame = s.frame) :
    s.Withdraws t := by
  simp only [frame, Prod.mk.injEq] at hframe
  obtain ⟨hconnections, hgrants, htokens⟩ := hframe
  refine ⟨TokensGoOn.of_eq hle htokens, ?_, ?_⟩
  · rw [hgrants]
    exact Continues.refl GrantRow.GoesOn.refl _
  · rw [hconnections]
    exact Continues.refl StaysBound.refl _

/-- The mailboxes and their credentials. -/
def mailboxes (s : Server) := (s.bindings, s.credentials)

/-- A withdrawing step is quiet when it leaves the mailboxes alone. -/
theorem Quiet.of_withdraws (h : s.Withdraws t) (hmailboxes : t.mailboxes = s.mailboxes) :
    s.Quiet t := by
  simp only [mailboxes, Prod.mk.injEq] at hmailboxes
  exact ⟨h, hmailboxes.1, hmailboxes.2⟩

theorem Quiet.of_frame (hle : s.nextId ≤ t.nextId) (hframe : t.frame = s.frame)
    (hmailboxes : t.mailboxes = s.mailboxes) : s.Quiet t :=
  Quiet.of_withdraws (Withdraws.of_frame hle hframe) hmailboxes

theorem Quiet.refl (s : Server) : s.Quiet s :=
  Quiet.of_frame (Nat.le_refl _) rfl rfl

/-- Quiet steps compose, so that an operation is quiet when its parts are. -/
theorem Quiet.trans (hfirst : s.Quiet t) (hsecond : t.Quiet u) : s.Quiet u where
  toWithdraws := hfirst.toWithdraws.trans hsecond.toWithdraws
  bindings := hsecond.bindings.trans hfirst.bindings
  credentials := hsecond.credentials.trans hfirst.credentials

/-- The rule for the loops of the service over rows: the loop is quiet when every round is. -/
theorem quiet_foldl {Item : Type} {next : Server → Item → Server}
    (hnext : ∀ (s : Server) item, s.Quiet (next s item)) (items : List Item) (s : Server) :
    s.Quiet (items.foldl next s) := by
  induction items generalizing s with
  | nil => exact Quiet.refl s
  | cons item items ih => exact (hnext s item).trans (ih (next s item))

/- Repository functions -/

/-- Drawing new ids touches no row. -/
theorem quiet_draw (count : Nat) : s.Quiet { s with nextId := s.nextId + count } :=
  Quiet.of_frame (Nat.le_add_right _ _) rfl rfl

/-- An update of connections that stay bound to their mailboxes, and that only revokes what is
cut off. -/
theorem quiet_updateConnections {condition : ConnectionRow → Bool}
    {change : ConnectionRow → ConnectionRow}
    (hchange : ∀ row, condition row = true → s.StaysBound row (change row)) :
    s.Quiet { s with connections := updateWhere s.connections condition change } where
  toTokensGoOn := TokensGoOn.of_eq (Nat.le_refl _) rfl
  grants := Continues.refl GrantRow.GoesOn.refl _
  connections := Continues.updateWhere StaysBound.refl fun row _ => hchange row
  bindings := rfl
  credentials := rfl

/-- A new connection is quiet as long as it is not born revoked: nothing is stored for its id
yet. -/
theorem quiet_createConnection {row : ConnectionRow} (hid : row.id = s.nextId)
    (hstate : row.state ≠ .revoked) :
    s.Quiet { s.createConnection row with nextId := s.nextId + 1 } where
  toTokensGoOn := TokensGoOn.of_eq (Nat.le_succ _) rfl
  grants := Continues.refl GrantRow.GoesOn.refl _
  connections := by
    apply Continues.append StaysBound.refl
    intro new hnew
    rw [List.mem_singleton.mp hnew]
    refine ⟨⟨Nat.le_of_eq hid.symm, ?_⟩, fun hrevoked => absurd hrevoked hstate⟩
    rw [hid]
    exact Nat.lt_succ_self _
  bindings := rfl
  credentials := rfl

/-- Updates of grants and refresh tokens that only end them. The revocations of the service are
all of this form. -/
theorem quiet_updateTokens {grantCondition : GrantRow → Bool}
    {grantChange : GrantRow → GrantRow} {condition : RefreshTokenRow → Bool}
    {change : RefreshTokenRow → RefreshTokenRow}
    (hgrantChange : ∀ row, GrantRow.GoesOn row (grantChange row))
    (hchange : ∀ row, RefreshTokenRow.GoesOn row (change row))
    (hgrants : t.grants = updateWhere s.grants grantCondition grantChange)
    (htokens : t.refreshTokens = updateWhere s.refreshTokens condition change)
    (hnextId : t.nextId = s.nextId) (hconnections : t.connections = s.connections)
    (hmailboxes : t.mailboxes = s.mailboxes) : s.Quiet t := by
  refine Quiet.of_withdraws ⟨⟨Nat.le_of_eq hnextId.symm, ?_, ?_⟩, ?_, ?_⟩ hmailboxes
  · rw [htokens]
    exact Continues.updateWhere RefreshTokenRow.GoesOn.refl fun row _ _ => hchange row
  · rw [htokens, map_updateWhere RefreshTokenRow.id fun row _ => by rw [(hchange row).1]]
  · rw [hgrants]
    exact Continues.updateWhere GrantRow.GoesOn.refl fun row _ _ => hgrantChange row
  · rw [hconnections]
    exact Continues.refl StaysBound.refl _

/-- A revocation ends a grant with its tokens and does nothing else. -/
theorem quiet_revokeGrant (id : Id) (reason : String) : s.Quiet (s.revokeGrant id reason) := by
  refine quiet_updateTokens ?_ ?_ rfl rfl rfl rfl rfl
  · intro row
    exact ⟨rfl, fun _ => by simp⟩
  · intro row
    exact ⟨rfl, fun h => h, fun _ => by simp⟩

theorem quiet_touchGrant (id : Id) : s.Quiet (s.touchGrant id) := by
  have htokens : s.refreshTokens = updateWhere s.refreshTokens (fun _ => false) fun row => row := by
    simp [updateWhere]
  refine quiet_updateTokens ?_ ?_ rfl htokens rfl rfl rfl
  · intro row
    exact ⟨rfl, fun h => h⟩
  · exact RefreshTokenRow.GoesOn.refl

/-- The use of a refresh token is recorded and never taken back. -/
theorem quiet_markRefreshTokenUsed (id : Id) : s.Quiet (s.markRefreshTokenUsed id).2 := by
  have hgrants : s.grants = updateWhere s.grants (fun _ => false) fun row => row := by
    simp [updateWhere]
  refine quiet_updateTokens ?_ ?_ hgrants rfl rfl rfl rfl
  · exact GrantRow.GoesOn.refl
  · intro row
    exact ⟨rfl, fun _ => by simp, fun h => h⟩

/-- Rows that only disappear, as at a deletion or a purge. -/
theorem quiet_filter {keptConnection : ConnectionRow → Bool} {keptGrant : GrantRow → Bool}
    {keptToken : RefreshTokenRow → Bool}
    (hconnections : t.connections = s.connections.filter keptConnection)
    (hgrants : t.grants = s.grants.filter keptGrant)
    (htokens : t.refreshTokens = s.refreshTokens.filter keptToken)
    (hnextId : t.nextId = s.nextId) (hmailboxes : t.mailboxes = s.mailboxes) :
    s.Quiet t := by
  refine Quiet.of_withdraws ⟨⟨Nat.le_of_eq hnextId.symm, ?_, ?_⟩, ?_, ?_⟩ hmailboxes
  · rw [htokens]
    exact Continues.filter RefreshTokenRow.GoesOn.refl
  · rw [htokens]
    exact List.filter_sublist.map _
  · rw [hgrants]
    exact Continues.filter GrantRow.GoesOn.refl
  · rw [hconnections]
    exact Continues.filter StaysBound.refl

theorem quiet_deleteConnection (id : Id) : s.Quiet (s.deleteConnection id) :=
  quiet_filter rfl rfl rfl rfl rfl

/-- The purge removes rows of refresh tokens and changes none of those it keeps. -/
theorem quiet_purgeExpired (horizon : Time) : s.Quiet (s.purgeExpired horizon) := by
  have hconnections : s.connections = s.connections.filter fun _ => true := by simp
  have hgrants : s.grants = s.grants.filter fun _ => true := by simp
  exact quiet_filter hconnections hgrants rfl rfl rfl

theorem quiet_revokeAllGrantsForConnection (connectionId : Id) (reason : String) :
    s.Quiet (s.revokeAllGrantsForConnection connectionId reason) := by
  apply quiet_foldl
  intro s grant
  split
  · exact quiet_revokeGrant _ _
  · exact Quiet.refl s

/- The postmaster -/

/-- The end of `create`: a connection and its enrollment, with no grant yet. -/
theorem quiet_createConnectionAndIssue (env : Env) (connectionExpiryDays : Option Nat)
    (request : CreateRequest) (binding : BindingRow) :
    s.Quiet (s.createConnectionAndIssue env connectionExpiryDays request binding).1 := by
  have hinsert : s.Quiet (s.insertConnection connectionExpiryDays request binding).2 := by
    rw [insertConnection]
    dsimp only
    split
    · exact Quiet.refl s
    · exact quiet_createConnection rfl (by simp)
  rw [createConnectionAndIssue]
  split
  · rename_i heq
    rw [heq] at hinsert
    exact hinsert
  · rename_i heq
    rw [heq] at hinsert
    exact hinsert.trans (quiet_draw 2)

/-- A reissue is about enrollments only. -/
theorem quiet_beginReissue {rank : Id → Nat} {id : Id} {pending : PendingIssue}
    (hbegin : s.beginReissue rank id = .ok (pending, t)) : s.Quiet t := by
  obtain ⟨connection, -, -, heq⟩ := beginReissue_eq_ok hbegin
  have hissue : s.Quiet (s.beginIssue rank connection false).2 := quiet_draw 2
  rw [heq] at hissue
  exact hissue

/-- A rotation ends all grants of a connection, which is quiet, before it is about enrollments. -/
theorem quiet_beginRotate {rank : Id → Nat} {id : Id} {pending : PendingIssue}
    (hbegin : s.beginRotate rank id = .ok (pending, t)) : s.Quiet t := by
  obtain ⟨connection, -, -, heq⟩ := beginRotate_eq_ok hbegin
  have hissue : s.Quiet
      ((s.revokeAllGrantsForConnection id "credentials rotated").beginIssue rank connection
        true).2 :=
    (quiet_revokeAllGrantsForConnection id "credentials rotated").trans (quiet_draw 2)
  rw [heq] at hissue
  exact hissue

theorem quiet_update (id : Id) (fields : ConnectionFields) :
    s.Quiet (s.update id fields).2 := by
  rw [update]
  split
  · exact Quiet.refl s
  · exact quiet_updateConnections fun _ _ => ⟨rfl, rfl, Or.inl⟩

/-- Whoever revokes a connection has cut it off before; the other states ask for nothing. -/
theorem quiet_setConnectionState (id : Id) {state : ConnectionState} (reason : Option String)
    (hcut : state = .revoked → s.CutOff id) : s.Quiet (s.setConnectionState id state reason) := by
  apply quiet_updateConnections
  intro row hcondition
  refine ⟨rfl, rfl, fun hrevoked => Or.inr ?_⟩
  simp only [decide_eq_true_eq] at hcondition
  rw [hcondition.1]
  exact hcut hrevoked

theorem quiet_disable (id : Id) (reason : Option String) :
    s.Quiet (s.disable id reason).2 := by
  rw [disable]
  split
  · exact Quiet.refl s
  · exact quiet_setConnectionState _ _ (by simp)

theorem quiet_enable (id : Id) : s.Quiet (s.enable id).2 := by
  rw [enable]
  split
  · exact Quiet.refl s
  · exact quiet_setConnectionState _ _ (by simp)

/-- The revocation ends the grants first, so that the new state meets a connection that is cut
off. -/
theorem quiet_revokeConnectionInternal (connectionId : Id) (reason : String) :
    s.Quiet (s.revokeConnectionInternal connectionId reason) := by
  have hgrants : s.Quiet (s.revokeAllGrantsForConnection connectionId reason) :=
    quiet_revokeAllGrantsForConnection _ _
  have henrollments : (s.revokeAllGrantsForConnection connectionId reason).Quiet
      ((s.revokeAllGrantsForConnection connectionId reason).revokeEnrollments connectionId) :=
    Quiet.of_frame (Nat.le_refl _) rfl rfl
  have hcut : (s.revokeAllGrantsForConnection connectionId reason).CutOff connectionId :=
    revokeAllGrants_revoked connectionId reason
  have hrevoked : Quiet _ (((s.revokeAllGrantsForConnection connectionId
      reason).revokeEnrollments connectionId).setConnectionState connectionId .revoked
        (some reason)) :=
    quiet_setConnectionState connectionId (some reason) fun _ => hcut
  exact (hgrants.trans henrollments).trans (hrevoked.trans
      (Quiet.of_frame (Nat.le_refl _) rfl rfl))

theorem quiet_revoke (id : Id) (reason : Option String) : s.Quiet (s.revoke id reason).2 := by
  rw [revoke]
  split
  · exact Quiet.refl s
  · split
    · exact Quiet.refl s
    · exact quiet_revokeConnectionInternal _ _

/-- The row goes after its revocation, and the tables behind it are as the revocation left
them. -/
theorem quiet_delete (id : Id) : s.Quiet (s.delete id).2 := by
  rw [delete]
  split
  · exact Quiet.refl s
  · dsimp only
    split
    · exact quiet_deleteConnection id
    · exact (quiet_revokeConnectionInternal _ _).trans (quiet_deleteConnection id)

theorem quiet_revokeGrantOf (connectionId grantId : Id) :
    s.Quiet (s.revokeGrantOf connectionId grantId).2 := by
  rw [revokeGrantOf]
  split
  · exact Quiet.refl s
  · split
    · exact Quiet.refl s
    · split
      · exact Quiet.refl s
      · exact quiet_revokeGrant _ _

/- Clients, sign-in and tokens -/

theorem frame_upsertClient (s : Server) (client : OAuthClientRow) :
    (s.upsertClient client).frame = s.frame ∧
      (s.upsertClient client).mailboxes = s.mailboxes ∧
        (s.upsertClient client).nextId = s.nextId := by
  rw [upsertClient]
  split
  · exact ⟨rfl, rfl, rfl⟩
  · exact ⟨rfl, rfl, rfl⟩

theorem quiet_upsertClient (client : OAuthClientRow) : s.Quiet (s.upsertClient client) := by
  obtain ⟨hframe, hmailboxes, hnextId⟩ := frame_upsertClient s client
  exact Quiet.of_frame (Nat.le_of_eq hnextId.symm) hframe hmailboxes

theorem quiet_register (env : Env) (request : RegistrationRequest) :
    s.Quiet (s.register env request).2 := by
  rw [register]
  split
  · exact Quiet.refl s
  · split
    · exact Quiet.refl s
    · split
      · exact Quiet.refl s
      · split
        · exact Quiet.refl s
        · refine (quiet_upsertClient _).trans (Quiet.of_frame ?_ rfl rfl)
          rw [(frame_upsertClient _ _).2.2]
          exact Nat.le_add_right _ 2

theorem quiet_finishFetch (clientId : String) (document : Except String ClientMetadata) :
    s.Quiet (s.finishFetch clientId document).2 := by
  cases document with
  | error reason => exact Quiet.refl s
  | ok document =>
      simp only [finishFetch]
      split
      · exact Quiet.refl s
      · split
        · exact quiet_upsertClient _
        · exact quiet_upsertClient _

theorem quiet_finishStart (env : Env) (wait : StartWait)
    (client : Except OAuthError OAuthClientRow) :
    s.Quiet (s.finishStart env wait client).2 := by
  cases client with
  | error error => exact Quiet.refl s
  | ok client =>
      simp only [finishStart]
      split
      · exact Quiet.refl s
      · split
        · exact Quiet.refl s
        · split
          · exact Quiet.refl s
          · split
            · exact Quiet.refl s
            · exact Quiet.of_frame (Nat.le_add_right _ 2) rfl rfl

theorem quiet_showConsent (requestId connectionId enrollmentId : Id)
    (scopes : List McpScope) :
    s.Quiet (s.showConsent requestId connectionId enrollmentId scopes) := by
  obtain ⟨requests, history, heq⟩ :=
    showConsent_kept s requestId connectionId enrollmentId scopes
  rw [heq]
  exact Quiet.of_frame (Nat.le_refl _) rfl rfl

/-- A sign-in changes a transaction, an enrollment's failures and the attempts, and no grant. -/
theorem quiet_finishLogin (wait : PasswordWait) : s.Quiet (s.finishLogin wait).2 := by
  have hattempt : ∀ success,
      s.Quiet (s.recordAttempt wait.ip wait.form.username success) := by
    intro success
    exact Quiet.of_frame (Nat.le_refl _) rfl rfl
  rw [finishLogin]
  split
  · rw [recordFailedLogin]
    split
    · exact hattempt false
    · split
      · exact (hattempt false).trans (Quiet.of_frame (Nat.le_refl _) rfl rfl)
      · exact hattempt false
  · split
    · exact hattempt false
    · split
      · exact Quiet.refl s
      · dsimp only
        split
        · exact Quiet.refl s
        · exact (hattempt true).trans (quiet_showConsent _ _ _ _)

/-- An approval stores a code. The grant is made later, when the code is exchanged. -/
theorem quiet_approveWith (wait : DecideWait) (client : OAuthClientRow)
    (enrollment : EnrollmentRow) (connection : ConnectionRow) :
    s.Quiet (s.approveWith wait client enrollment connection).2 := by
  have hissued : s.Quiet (s.issued (issueInput wait client enrollment connection)) :=
    Quiet.of_frame (Nat.le_add_right _ 2) rfl rfl
  simp only [approveWith]
  split
  · rename_i reserved heq
    have hreserved : s.issued (issueInput wait client enrollment connection) = reserved :=
      congrArg Prod.snd heq
    rw [← hreserved]
    exact hissued
  · rename_i reserved heq
    have hreserved : s.issued (issueInput wait client enrollment connection) = reserved :=
      congrArg Prod.snd heq
    rw [← hreserved]
    have hcompleted : s.Quiet ((s.issued (issueInput wait client enrollment
        connection)).completeRequest wait.request.id).2 :=
      hissued.trans (Quiet.of_frame (Nat.le_refl _) rfl rfl)
    split
    · rename_i heq
      rw [heq] at hcompleted
      exact hcompleted
    · rename_i heq
      rw [heq] at hcompleted
      exact hcompleted

theorem quiet_deny (wait : DecideWait) : s.Quiet (s.deny wait).2 := by
  have hcompleted : s.Quiet (s.completeRequest wait.request.id).2 :=
    Quiet.of_frame (Nat.le_refl _) rfl rfl
  rw [deny]
  split
  · rename_i heq
    rw [heq] at hcompleted
    exact hcompleted
  · rename_i heq
    rw [heq] at hcompleted
    exact hcompleted

theorem quiet_finishDecide (wait : DecideWait) (client : Except OAuthError OAuthClientRow) :
    s.Quiet (s.finishDecide wait client).2 := by
  cases client with
  | error error => exact Quiet.refl s
  | ok row =>
      simp only [finishDecide]
      split
      · exact Quiet.refl s
      · split
        · exact quiet_deny wait
        · rw [approve]
          split
          · exact Quiet.refl s
          · split
            · exact Quiet.refl s
            · split
              · exact Quiet.refl s
              · split
                · exact Quiet.refl s
                · exact quiet_approveWith _ _ _ _

/-- Redeeming a code is about the table of codes. -/
theorem quiet_redeemed (code : AuthorizationCodeRow) : s.Quiet (s.redeemed code) :=
  Quiet.of_frame (Nat.le_refl _) rfl rfl

theorem quiet_tryRefresh (client : OAuthClientRow) (token : Secret) :
    s.Quiet (s.tryRefresh client token).2 := by
  rw [tryRefresh]
  split
  · exact Quiet.refl s
  · split
    · exact Quiet.refl s
    · split
      · exact quiet_revokeGrant _ _
      · exact Quiet.refl s

theorem quiet_tryAccess (client : OAuthClientRow) (token : Secret) :
    s.Quiet (s.tryAccess client token).2 := by
  rw [tryAccess]
  split
  · exact Quiet.refl s
  · split
    · exact Quiet.refl s
    · split
      · rw [revokeAccessTokenByHash]
        split
        · exact Quiet.refl s
        · exact Quiet.of_frame (Nat.le_refl _) rfl rfl
      · exact Quiet.refl s

/-- The revocation endpoint ends one access token or one grant, and a token of another client is
left as it is. -/
theorem quiet_revokeToken (client : OAuthClientRow) (token : Secret)
    (hint : Option String) : s.Quiet (s.revokeToken client token hint) := by
  have hrefresh : s.Quiet (s.tryRefresh client token).2 := quiet_tryRefresh _ _
  have haccess : s.Quiet (s.tryAccess client token).2 := quiet_tryAccess _ _
  rw [revokeToken]
  split
  · cases htry : s.tryAccess client token with
    | mk found tried =>
        rw [htry] at haccess
        cases found with
        | true => exact haccess
        | false => exact haccess.trans (quiet_tryRefresh _ _)
  · cases htry : s.tryRefresh client token with
    | mk found tried =>
        rw [htry] at hrefresh
        cases found with
        | true => exact hrefresh
        | false => exact hrefresh.trans (quiet_tryAccess _ _)

theorem quiet_touchUsed (id : Id) : s.Quiet (s.touchUsed id) :=
  quiet_updateConnections fun _ _ => ⟨rfl, rfl, Or.inl⟩

theorem quiet_touchAuthorized (id : Id) : s.Quiet (s.touchAuthorized id) :=
  quiet_updateConnections fun _ _ => ⟨rfl, rfl, Or.inl⟩

/-- A request with an access token stamps rows as used and nothing more, whether it is accepted
or refused. -/
theorem quiet_verify (connectionId : List Char) (authorization : BearerHeader) :
    s.Quiet (s.verify connectionId authorization).2 := by
  have hrefl := Quiet.refl s
  have hgranted : ∀ connection token grant,
      s.Quiet (s.verifyGranted connection token grant).2 := by
    intro connection token grant
    simp only [verifyGranted]
    split
    · exact hrefl
    · split
      · exact hrefl
      · split
        · exact hrefl
        · split
          · exact (quiet_touchUsed _).trans (quiet_touchGrant _)
          · exact hrefl
  simp only [verify]
  split
  · split
    · exact hrefl
    · split
      · exact hrefl
      · split
        · exact hrefl
        · split
          · exact hrefl
          · exact hrefl
          · split
            · exact hrefl
            · split
              · exact hrefl
              · split
                · exact hrefl
                · exact hgranted _ _ _
  · exact hrefl

theorem quiet_resetEnrollment (enrollmentId : Id) (passwordHash : Secret)
    (expiresAt : Time) : s.Quiet (s.resetEnrollment enrollmentId passwordHash expiresAt) := by
  obtain ⟨history, heq⟩ := resetEnrollment_kept s enrollmentId passwordHash expiresAt
  rw [heq]
  exact Quiet.of_frame (Nat.le_refl _) rfl rfl

/-- The hash of a setup password has been made, and the enrollment is stored or reset. -/
theorem quiet_finishHash (operation : IssueOperation) (pending : PendingIssue) :
    s.Quiet (s.finishHash operation pending) := by
  have hnoted : s.Quiet (s.noted operation pending.connectionId) := by
    cases operation <;> exact Quiet.of_frame (Nat.le_refl _) rfl rfl
  rw [finishHash]
  split
  · exact Quiet.refl s
  · rename_i issued heq
    simp only [finishIssue] at heq
    split at heq
    · cases heq
      exact hnoted.trans (quiet_resetEnrollment _ _ _)
    · simp only [issueEnrollment, Option.map_map, Option.map_eq_some_iff] at heq
      obtain ⟨connection, -, heq⟩ := heq
      cases heq
      exact hnoted.trans (Quiet.of_frame (Nat.le_succ _) rfl rfl)

end Server

namespace System

/-- A step is quiet, or mints tokens for a new or an old grant, or is about a mailbox. The cases
are those that an invariant of live connections has to look at. -/
inductive Tended (env : Env) (system : System) (label : Label) : Server → Prop
  | quiet {server : Server} (server_quiet : system.server.Quiet server) :
      Tended env system label server
  | granted {client : OAuthClientRow} {input : ExchangeInput} {code : AuthorizationCodeRow}
      {codeVerifier : String} {scopes : List McpScope}
      (redemption : system.server.Redemption env input code codeVerifier scopes) :
      Tended env system label
        ((system.server.redeemed code).grantCode client code scopes codeVerifier).2
  | refreshed {index : Nat} {resolved : Except OAuthError OAuthClientRow}
      {presented : PresentedSecret} {form : TokenForm} {client : OAuthClientRow}
      {token : RefreshTokenRow} {grant : GrantRow} {scopes : List McpScope}
      (refreshing : system.server.Refreshing
        ⟨client, form.refreshToken, form.scope, form.resource⟩ token grant scopes)
      (label_eq : label = .resume index .done)
      (task_at : system.tasks[index]? =
        some (.resolvingClient (.resolved resolved) (.token presented form))) :
      Tended env system label (system.server.refreshed token grant scopes)
  | rejected {bindingId : Id} {binding : BindingRow}
      (label_eq : label = .request (.credentialRejected bindingId))
      (found : system.server.findBinding bindingId = some binding) :
      Tended env system label (system.server.markCredentialRejected binding)
  | creating {request : CreateRequest} {server : Server}
      (label_eq : label = .request (.create request))
      (server_quiet : (system.server.beginCreate request).2.Quiet server) :
      Tended env system label server
  | updating {id : Id} {password fingerprint : String}
      (label_eq : label = .request (.updateCredentials id password fingerprint)) :
      Tended env system label (system.server.beginUpdateCredentials id fingerprint).2
  | mailbox {mailbox : String} {event : MailboxEvent}
      (label_eq : label = .request (.mailboxEvent mailbox event)) :
      Tended env system label (system.server.mailboxEvent mailbox event)
  | reconciled {entries : List (String × String)}
      (label_eq : label = .request (.reconcile entries)) :
      Tended env system label (system.server.reconcile entries)
  | provisioned {index : Nat} {result : VerifyResult} {connectionExpiryDays : Option Nat}
      {request : CreateRequest} {binding : BindingRow} {password : String} {server : Server}
      (label_eq : label = .resume index (.verified result))
      (task_at : system.tasks[index]? =
        some (.provisioning connectionExpiryDays request binding password))
      (server_quiet : (system.server.finishProvision binding.id password result).2.Quiet
        server) :
      Tended env system label server
  | replaced {index : Nat} {result : VerifyResult} {binding : BindingRow} {password : String}
      (label_eq : label = .resume index (.verified result))
      (task_at : system.tasks[index]? = some (.updatingCredentials binding password)) :
      Tended env system label
        (system.server.finishUpdateCredentials binding password result).2
  | tested {index : Nat} {result : VerifyResult} {binding : BindingRow}
      (label_eq : label = .resume index (.verified result))
      (task_at : system.tasks[index]? = some (.testing binding)) :
      Tended env system label (system.server.finishTest binding result)

variable {env : Env} {system : System}

/-- Every request that is answered without a wait is quiet or one of the few that are not, which
the relation lists. -/
theorem receive_tended (request : Request) :
    Tended env system (.request request) (system.server.receive env request).1 := by
  cases request with
  | start query =>
      simp only [Server.receive]
      split <;> exact .quiet (Server.Quiet.refl _)
  | login form cookieTxn ip =>
      simp only [Server.receive]
      split <;> exact .quiet (Server.Quiet.refl _)
  | decide form cookieTxn =>
      simp only [Server.receive]
      split <;> exact .quiet (Server.Quiet.refl _)
  | token credentials form =>
      simp only [Server.receive]
      split <;> exact .quiet (Server.Quiet.refl _)
  | revokeToken credentials token hint =>
      simp only [Server.receive]
      split <;> exact .quiet (Server.Quiet.refl _)
  | register request =>
      simp only [Server.receive]
      split
      · exact .quiet (Server.quiet_register env request)
      · exact .quiet (Server.Quiet.refl _)
  | bearer connectionId authorization => exact .quiet (Server.quiet_verify _ _)
  | credentialRejected bindingId =>
      simp only [Server.receive]
      split
      · exact .quiet (Server.Quiet.refl _)
      · rename_i binding hfind
        exact .rejected rfl hfind
  | create request =>
      simp only [Server.receive]
      cases hcreate : system.server.beginCreate request with
      | mk result resolved =>
          have hresolved : (system.server.beginCreate request).2 = resolved := by
            rw [hcreate]
          cases result with
          | error error => exact .creating rfl (hresolved ▸ Server.Quiet.refl _)
          | ok binding =>
              dsimp only
              split
              · refine .creating rfl ?_
                rw [hresolved]
                exact Server.quiet_createConnectionAndIssue _ _ _ _
              · split
                · exact .creating rfl (hresolved ▸ Server.Quiet.refl _)
                · exact .creating rfl (hresolved ▸ Server.Quiet.refl _)
  | update id fields => exact .quiet (Server.quiet_update id fields)
  | updateCredentials id password fingerprint =>
      have hupdating : Tended env system
          (.request (.updateCredentials id password fingerprint))
          (system.server.beginUpdateCredentials id fingerprint).2 := .updating rfl
      simp only [Server.receive]
      split
      · rename_i heq
        rw [heq] at hupdating
        exact hupdating
      · rename_i heq
        rw [heq] at hupdating
        split <;> exact hupdating
  | reissue id =>
      simp only [Server.receive]
      split
      · exact .quiet (Server.Quiet.refl _)
      · rename_i hbegin
        exact .quiet (Server.quiet_beginReissue hbegin)
  | rotate id =>
      simp only [Server.receive]
      split
      · exact .quiet (Server.Quiet.refl _)
      · rename_i hbegin
        exact .quiet (Server.quiet_beginRotate hbegin)
  | test id =>
      simp only [Server.receive]
      split
      · exact .quiet (Server.Quiet.refl _)
      · split <;> exact .quiet (Server.Quiet.refl _)
  | disable id reason => exact .quiet (Server.quiet_disable id reason)
  | enable id => exact .quiet (Server.quiet_enable id)
  | revoke id reason => exact .quiet (Server.quiet_revoke id reason)
  | delete id => exact .quiet (Server.quiet_delete id)
  | revokeGrant id grantId => exact .quiet (Server.quiet_revokeGrantOf id grantId)
  | mailboxEvent mailbox event => exact .mailbox rfl
  | reconcile entries => exact .reconciled rfl
  | updateSettings settings =>
      exact .quiet (Server.Quiet.of_frame (Nat.le_refl _) rfl rfl)

/-- The token endpoint, once its client is there: the exchange and the refresh are the steps
that issue tokens. -/
theorem answerToken_tended {index : Nat} {resolved : Except OAuthError OAuthClientRow}
    {presented : PresentedSecret} {form : TokenForm}
    (htask : system.tasks[index]? =
      some (.resolvingClient (.resolved resolved) (.token presented form)))
    (client : OAuthClientRow) :
    Tended env system (.resume index .done)
      (system.server.answerToken env client form).2 := by
  simp only [Server.answerToken]
  split
  · have houtcome := Server.exchangeCode_outcome system.server env
      ⟨client, form.code, form.redirectUri, form.codeVerifier, form.resource⟩
    generalize (system.server.exchangeCode env _).2 = after at houtcome ⊢
    cases houtcome with
    | refused => exact .quiet (Server.Quiet.refl _)
    | replayed grantId => exact .quiet (Server.quiet_revokeGrant _ _)
    | unconsumed code => exact .quiet (Server.Quiet.of_frame (Nat.le_refl _) rfl rfl)
    | ungranted code => exact .quiet (Server.quiet_redeemed code)
    | granted hredemption => exact .granted hredemption
  · split
    · exact .quiet (Server.Quiet.refl _)
    · have houtcome := Server.refresh_outcome system.server
        ⟨client, form.refreshToken, form.scope, form.resource⟩
      generalize system.server.refresh _ = result at houtcome ⊢
      cases houtcome with
      | refused error => exact .quiet (Server.Quiet.refl _)
      | replayed error => exact .quiet (Server.quiet_revokeGrant _ _)
      | raced error token grantId =>
          exact .quiet ((Server.quiet_markRefreshTokenUsed _).trans
            (Server.quiet_revokeGrant _ _))
      | refreshed response hrefreshing => exact .refreshed hrefreshing rfl htask
  · exact .quiet (Server.Quiet.refl _)

/-- The continuation of every waiting task is quiet, mints tokens, or is about a mailbox. The
cases go by what the task waited for. -/
theorem proceed_tended {index : Nat} {reply : Reply} {task : Task} {server : Server}
    {next : List Task} (htask : system.tasks[index]? = some task)
    (hproceed : system.server.proceed env task reply = some (server, next)) :
    Tended env system (.resume index reply) server := by
  unfold Server.proceed at hproceed
  split at hproceed
  · cases hproceed
    exact .quiet (Server.Quiet.refl _)
  · cases hproceed
    exact .quiet (Server.quiet_finishFetch _ _)
  · rename_i resolved continuation
    have hserver : (system.server.continueWith env resolved continuation).1 = server :=
      congrArg Prod.fst (Option.some.inj hproceed)
    rw [← hserver]
    cases continuation with
    | start wait => exact .quiet (Server.quiet_finishStart env wait resolved)
    | login wait =>
        simp only [Server.continueWith]
        split <;> exact .quiet (Server.Quiet.refl _)
    | decide wait => exact .quiet (Server.quiet_finishDecide wait resolved)
    | token presented form =>
        simp only [Server.continueWith]
        split
        · exact .quiet (Server.Quiet.refl _)
        · exact answerToken_tended htask _
    | revokeToken presented token hint =>
        simp only [Server.continueWith]
        split
        · exact .quiet (Server.quiet_revokeToken _ _ _)
        · exact .quiet (Server.Quiet.refl _)
  · cases hproceed
    exact .quiet (Server.quiet_finishLogin _)
  · rename_i connectionExpiryDays request binding password result
    split at hproceed
    · rename_i heq
      cases hproceed
      refine .provisioned rfl htask ?_
      rw [heq]
      exact Server.Quiet.refl _
    · rename_i provisioned heq
      have hserver : (provisioned.createConnectionAndIssue env _ _ _).1 = server :=
        congrArg Prod.fst (Option.some.inj hproceed)
      refine .provisioned rfl htask ?_
      rw [heq, ← hserver]
      exact Server.quiet_createConnectionAndIssue _ _ _ _
  · cases hproceed
    exact .quiet (Server.quiet_finishHash _ _)
  · cases hproceed
    exact .replaced rfl htask
  · cases hproceed
    exact .tested rfl htask
  · cases hproceed

/-- One step of the whole service, whichever it is. -/
theorem step_tended (env : Env) (system : System) (label : Label) :
    Tended env system label (system.step env label).server := by
  cases label with
  | request request => exact receive_tended request
  | resume index reply =>
      simp only [step]
      cases htask : system.tasks[index]? with
      | none => exact .quiet (Server.Quiet.refl _)
      | some task =>
          cases hproceed : system.server.proceed env task reply with
          | none => simpa [hproceed] using .quiet (Server.Quiet.refl _)
          | some next => simpa [hproceed] using proceed_tended htask hproceed
  | advance milliseconds => exact .quiet (Server.Quiet.of_frame (Nat.le_refl _) rfl rfl)
  | housekeeping => exact .quiet (Server.quiet_purgeExpired _)
  | restart vaultKeyId => exact .quiet (Server.Quiet.of_frame (Nat.le_refl _) rfl rfl)

end System

end Mcp

end MailPanel
