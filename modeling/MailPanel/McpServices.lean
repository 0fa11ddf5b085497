import MailPanel.McpEvolution

/-
What the postmaster's operations do to the tables: all of them evolve, and those
that revoke a connection leave nothing of it.
-/

namespace MailPanel

namespace Mcp

open RowTable

namespace Server

variable {mandate : Mandate} {s t : Server}

/-- Ids are drawn before they are used, and never twice, so a row that a request has read is
found again under its id or not at all. -/
structure WellFormed (s : Server) : Prop where
  connection_lt : ∀ row ∈ s.connections, row.id < s.nextId
  connection_nodup : (s.connections.map ConnectionRow.id).Nodup
  enrollment_lt : ∀ row ∈ s.enrollments, row.id < s.nextId
  enrollment_nodup : (s.enrollments.map EnrollmentRow.id).Nodup
  request_lt : ∀ row ∈ s.requests, row.id < s.nextId
  request_nodup : (s.requests.map AuthorizationRequestRow.id).Nodup
  code_lt : ∀ row ∈ s.codes, row.id < s.nextId
  grant_lt : ∀ row ∈ s.grants, row.id < s.nextId

theorem WellFormed.evolves (hs : s.WellFormed) (h : s.Evolves mandate t) : t.WellFormed where
  connection_lt := h.connection_lt hs.connection_lt
  connection_nodup := h.connectionIds hs.connection_lt hs.connection_nodup
  enrollment_lt := by
    apply h.enrollments.key_lt EnrollmentRow.id _ (fun _ => False.elim) h.nextId_le
      hs.enrollment_lt
    intro old row hgoesOn
    rw [hgoesOn.1]
  enrollment_nodup := hs.enrollment_nodup.sublist h.enrollmentIds
  request_lt := h.request_lt hs.request_lt
  request_nodup := h.requestIds hs.request_lt hs.request_nodup
  code_lt := by
    apply h.codes.key_lt AuthorizationCodeRow.id _ (fun _ => False.elim) h.nextId_le
      hs.code_lt
    intro old row hgoesOn
    rw [hgoesOn.1]
  grant_lt := by
    apply h.grants.key_lt GrantRow.id _ (fun _ => False.elim) h.nextId_le hs.grant_lt
    intro old row hgoesOn
    rw [hgoesOn.1]

section Connections

theorem evolves_invalidateBinding (binding : BindingRow) (state : BindingState)
    (reason : String) : s.Evolves mandate (s.invalidateBinding binding state reason) := by
  have hbinding : s.Evolves mandate
      ((s.deleteCredential binding.id).setBindingState binding.id state (some reason)) :=
    Evolves.of_tracked rfl
  apply hbinding.trans
  apply evolves_foldl
  intro s connection
  exact evolves_revokeAllGrantsForConnection connection.id reason

theorem evolves_createBinding {Error : Type} (mailbox fingerprint : String) :
    s.Evolves mandate
      (s.createBinding mailbox fingerprint : Except Error BindingRow × Server).2 :=
  (evolves_draw 1).trans (Evolves.of_tracked rfl)

theorem evolves_resolveBinding (mailbox fingerprint : String) :
    s.Evolves mandate (s.resolveBinding mailbox fingerprint).2 := by
  rw [resolveBinding]
  cases s.findLiveByMailbox mailbox with
  | none => exact evolves_createBinding mailbox fingerprint
  | some existing =>
      have hresolved : s.Evolves mandate
          (if existing.fingerprint ≠ fingerprint then
            (s.invalidateBinding existing .stale
              "The mailbox password or identity changed.").reanchor existing.id fingerprint
          else if existing.state = .mailboxMissing then
            s.setBindingState existing.id .active none
          else s) := by
        split
        · exact (evolves_invalidateBinding _ _ _).trans (Evolves.of_tracked rfl)
        · split
          · exact Evolves.of_tracked rfl
          · exact Evolves.refl mandate s
      dsimp only
      split
      · exact hresolved
      · exact hresolved

theorem evolves_putCredential (bindingId : Id) (keyId password : String) :
    s.Evolves mandate (s.putCredential bindingId keyId password) := by
  apply Evolves.of_tracked
  rw [putCredential]
  split <;> rfl

theorem evolves_finishProvision (bindingId : Id) (password : String)
    (result : VerifyResult) :
    s.Evolves mandate (s.finishProvision bindingId password result).2 := by
  rw [finishProvision]
  split
  · split
    · exact Evolves.refl mandate s
    · exact Evolves.refl mandate s
  · cases s.vaultKeyId with
    | none => exact Evolves.refl mandate s
    | some keyId =>
        exact (evolves_putCredential bindingId keyId password).trans (Evolves.of_tracked rfl)

theorem evolves_beginCreate (request : CreateRequest) :
    s.Evolves mandate (s.beginCreate request).2 := by
  rw [beginCreate]
  split
  · exact Evolves.refl mandate s
  · split
    · exact Evolves.refl mandate s
    · have hresolved : s.Evolves mandate
          (s.resolveBinding request.mailbox request.mailboxFingerprint).2 :=
        evolves_resolveBinding _ _
      split
      · rename_i hresolve
        rw [hresolve] at hresolved
        exact hresolved
      · rename_i hresolve
        rw [hresolve] at hresolved
        split
        · exact hresolved
        · exact hresolved

theorem evolves_insertConnection (connectionExpiryDays : Option Nat)
    (request : CreateRequest) (binding : BindingRow) :
    s.Evolves mandate (s.insertConnection connectionExpiryDays request binding).2 := by
  rw [insertConnection]
  dsimp only
  split
  · exact Evolves.refl mandate s
  · exact evolves_createConnection rfl

theorem evolves_createConnectionAndIssue (env : Env) (connectionExpiryDays : Option Nat)
    (request : CreateRequest) (binding : BindingRow) :
    s.Evolves mandate
      (s.createConnectionAndIssue env connectionExpiryDays request binding).1 := by
  have hinsert : s.Evolves mandate (s.insertConnection connectionExpiryDays request binding).2 :=
    evolves_insertConnection _ _ _
  rw [createConnectionAndIssue]
  split
  · rename_i heq
    rw [heq] at hinsert
    exact hinsert
  · rename_i heq
    rw [heq] at hinsert
    exact hinsert.trans (evolves_draw 2)

theorem requireMutable_eq_ok {id : Id} {connection : ConnectionRow} :
    s.requireMutable id = .ok connection ↔
      s.findConnection id = some connection ∧ connection.state ≠ .revoked := by
  simp only [requireMutable, requireConnection, assertMutable, bind, Except.bind, pure,
    Except.pure]
  cases s.findConnection id with
  | none => simp
  | some found =>
      by_cases hrevoked : found.state = .revoked
      · simp only [hrevoked, ↓reduceIte, reduceCtorEq, false_iff, Option.some.injEq]
        intro ⟨heq, hlive⟩
        exact hlive (heq ▸ hrevoked)
      · simp only [hrevoked, ↓reduceIte, Except.ok.injEq, Option.some.injEq]
        constructor
        · intro heq
          exact ⟨heq, heq ▸ hrevoked⟩
        · exact fun h => h.1

/-- `reissue` reads and draws, and waits. -/
theorem beginReissue_eq_ok {rank : Id → Nat} {id : Id} {pending : PendingIssue}
    (hbegin : s.beginReissue rank id = .ok (pending, t)) :
    ∃ connection, s.findConnection id = some connection ∧ connection.state ≠ .revoked ∧
      s.beginIssue rank connection false = (pending, t) := by
  simp only [beginReissue, bind, Except.bind, pure, Except.pure, throw, throwThe,
    MonadExceptOf.throw] at hbegin
  cases hmutable : s.requireMutable id with
  | error error => simp [hmutable] at hbegin
  | ok connection =>
      obtain ⟨hfind, hlive⟩ := requireMutable_eq_ok.mp hmutable
      refine ⟨connection, hfind, hlive, ?_⟩
      simp only [hmutable] at hbegin
      split at hbegin
      · cases hbegin
      · split at hbegin
        · cases hbegin
        · exact Except.ok.inj hbegin

/-- `rotate` first revokes every grant. -/
theorem beginRotate_eq_ok {rank : Id → Nat} {id : Id} {pending : PendingIssue}
    (hbegin : s.beginRotate rank id = .ok (pending, t)) :
    ∃ connection, s.findConnection id = some connection ∧ connection.state ≠ .revoked ∧
      (s.revokeAllGrantsForConnection id "credentials rotated").beginIssue rank connection
        true = (pending, t) := by
  simp only [beginRotate, bind, Except.bind, pure, Except.pure] at hbegin
  cases hmutable : s.requireMutable id with
  | error error => simp [hmutable] at hbegin
  | ok connection =>
      obtain ⟨hfind, hlive⟩ := requireMutable_eq_ok.mp hmutable
      simp only [hmutable] at hbegin
      exact ⟨connection, hfind, hlive, Except.ok.inj hbegin⟩

theorem evolves_beginReissue {rank : Id → Nat} {id : Id} {pending : PendingIssue}
    (hbegin : s.beginReissue rank id = .ok (pending, t)) : s.Evolves mandate t := by
  obtain ⟨connection, -, -, heq⟩ := beginReissue_eq_ok hbegin
  have hissue : s.Evolves mandate (s.beginIssue rank connection false).2 := evolves_draw 2
  rw [heq] at hissue
  exact hissue

theorem evolves_beginRotate {rank : Id → Nat} {id : Id} {pending : PendingIssue}
    (hbegin : s.beginRotate rank id = .ok (pending, t)) : s.Evolves mandate t := by
  obtain ⟨connection, -, -, heq⟩ := beginRotate_eq_ok hbegin
  have hissue : s.Evolves mandate
      ((s.revokeAllGrantsForConnection id "credentials rotated").beginIssue rank connection
        true).2 :=
    (evolves_revokeAllGrantsForConnection id "credentials rotated").trans (evolves_draw 2)
  rw [heq] at hissue
  exact hissue

theorem evolves_update (id : Id) (fields : ConnectionFields)
    (hwidens : (∃ connection, s.requireMutable id = .ok connection) →
      ∀ row ∈ s.connections, row.id = id →
        ∀ scope ∈ fields.scopes.getD row.scopes,
          scope ∈ row.scopes ∨ mandate.widens id scope) :
    s.Evolves mandate (s.update id fields).2 := by
  rw [update]
  split
  · exact Evolves.refl mandate s
  · rename_i connection hmutable
    exact evolves_updateConnection id fields (hwidens ⟨connection, hmutable⟩)

theorem evolves_beginUpdateCredentials (id : Id) (fingerprint : String) :
    s.Evolves mandate (s.beginUpdateCredentials id fingerprint).2 := by
  rw [beginUpdateCredentials]
  cases s.requireMutable id with
  | error error => exact Evolves.refl mandate s
  | ok connection =>
      have hresolved : s.Evolves mandate
          (s.resolveBinding connection.mailbox fingerprint).2 := evolves_resolveBinding _ _
      dsimp only
      cases hresolve : s.resolveBinding connection.mailbox fingerprint with
      | mk result resolved =>
          rw [hresolve] at hresolved
          cases result with
          | error error => exact hresolved
          | ok binding =>
              dsimp only
              split
              · exact hresolved
              · exact hresolved

theorem evolves_finishUpdateCredentials (binding : BindingRow) (password : String)
    (result : VerifyResult) :
    s.Evolves mandate (s.finishUpdateCredentials binding password result).2 := by
  have hprovision : s.Evolves mandate (s.finishProvision binding.id password result).2 :=
    evolves_finishProvision _ _ _
  rw [finishUpdateCredentials]
  cases hfinish : s.finishProvision binding.id password result with
  | mk outcome provisioned =>
      rw [hfinish] at hprovision
      cases outcome with
      | error error => exact hprovision
      | ok done =>
          dsimp only
          split
          · exact hprovision.trans (Evolves.of_tracked rfl)
          · exact hprovision

theorem evolves_finishTest (binding : BindingRow) (result : VerifyResult) :
    s.Evolves mandate (s.finishTest binding result) := by
  rw [finishTest]
  split
  · exact Evolves.of_tracked rfl
  · split
    · exact evolves_invalidateBinding _ _ _
    · exact Evolves.of_tracked rfl

theorem evolves_setStateOf (id : Id) (state : ConnectionState) (reason : Option String) :
    s.Evolves mandate (match s.requireMutable id with
      | .error error => (Except.error error, s)
      | .ok _ => (.ok (), s.setConnectionState id state reason)).2 := by
  cases s.requireMutable id with
  | error error => exact Evolves.refl mandate s
  | ok connection => exact evolves_setConnectionState id state reason

theorem evolves_revokeGrantOf (connectionId grantId : Id) :
    s.Evolves mandate (s.revokeGrantOf connectionId grantId).2 := by
  rw [revokeGrantOf]
  split
  · exact Evolves.refl mandate s
  · split
    · exact Evolves.refl mandate s
    · split
      · exact Evolves.refl mandate s
      · exact evolves_revokeGrant _ _

theorem evolves_reconcile (entries : List (String × String)) :
    s.Evolves mandate (s.reconcile entries) := by
  apply evolves_foldl
  intro s binding
  rw [reconcileBinding]
  split
  · split
    · exact Evolves.of_tracked rfl
    · exact Evolves.refl mandate s
  · split
    · split
      · exact evolves_invalidateBinding _ _ _
      · exact Evolves.refl mandate s
    · split
      · exact Evolves.of_tracked rfl
      · exact Evolves.refl mandate s

/- Revocation -/

theorem revokeGrant_revoked (id : Id) (reason : String) :
    ∀ row ∈ (s.revokeGrant id reason).grants, row.id = id → row.revokedAt ≠ none := by
  intro row hrow hid
  rcases mem_updateWhere.mp hrow with ⟨-, hcondition⟩ | ⟨old, -, -, rfl⟩
  · intro hlive
    simp [hid, hlive] at hcondition
  · simp

/-- Once a grant is revoked it stays so. -/
theorem Evolves.grant_revoked (h : s.Evolves mandate t) {id : Id}
    (hrevoked : ∀ row ∈ s.grants, row.id = id → row.revokedAt ≠ none) :
    ∀ row ∈ t.grants, row.id = id → row.revokedAt ≠ none := by
  apply h.grants.forall _ (fun _ => False.elim) hrevoked
  intro old row hgoesOn hold hid
  exact hgoesOn.2 (hold (by rw [hgoesOn.1] at hid; exact hid))

theorem foldl_revokeGrant_revoked (reason : String) (items : List GrantRow) (s : Server)
    {grant : GrantRow} (hgrant : grant ∈ items) (hlive : grant.revokedAt = none) :
    ∀ row ∈ (items.foldl (fun s grant => if grant.revokedAt = none then
        s.revokeGrant grant.id reason else s) s).grants,
      row.id = grant.id → row.revokedAt ≠ none := by
  induction items generalizing s with
  | nil => cases hgrant
  | cons item items ih =>
      rcases List.mem_cons.mp hgrant with heq | hgrant
      · subst heq
        have hrest : (s.revokeGrant grant.id reason).Evolves Mandate.none
            (items.foldl (fun s grant => if grant.revokedAt = none then
              s.revokeGrant grant.id reason else s) (s.revokeGrant grant.id reason)) := by
          apply evolves_foldl
          intro s grant
          split
          · exact evolves_revokeGrant _ _
          · exact Evolves.refl _ _
        simp only [List.foldl_cons, hlive, ↓reduceIte]
        exact hrest.grant_revoked (revokeGrant_revoked grant.id reason)
      · exact ih _ hgrant

theorem revokeAllGrants_revoked (connectionId : Id) (reason : String) :
    ∀ row ∈ (s.revokeAllGrantsForConnection connectionId reason).grants,
      row.connectionId = connectionId → row.revokedAt ≠ none := by
  intro row hrow hconnection
  have hevolves : s.Evolves Mandate.none (s.revokeAllGrantsForConnection connectionId reason) :=
    evolves_revokeAllGrantsForConnection _ _
  rcases hevolves.grants row hrow with ⟨old, hold, hgoesOn⟩ | hfalse
  · have hid : row.id = old.id := by rw [hgoesOn.1]
    have hlisted : old ∈ s.listGrants connectionId := by
      rw [hgoesOn.1] at hconnection
      exact List.mem_filter.mpr ⟨hold, by simpa using hconnection⟩
    by_cases hlive : old.revokedAt = none
    · exact foldl_revokeGrant_revoked reason _ s hlisted hlive row hrow hid
    · exact hgoesOn.2 hlive
  · exact hfalse.elim

/-- An event of revocation on record, once the connection is revoked. -/
theorem evolves_recordRevoked {connectionId : Id} (hmandate : mandate.revokes connectionId)
    (hrevoked : s.Revoked connectionId) :
    s.Evolves mandate (s.record (.connectionRevoked connectionId)) where
  __ := Evolves.refl mandate s
  history := by
    refine ⟨[.connectionRevoked connectionId], rfl, ?_⟩
    intro event hevent
    refine ⟨connectionId, List.mem_singleton.mp hevent, hmandate, ?_⟩
    exact ⟨hrevoked.drawn, hrevoked.connections, hrevoked.enrollments, hrevoked.grants⟩

theorem revokeEnrollments_revoked (connectionId : Id) :
    ∀ row ∈ (s.revokeEnrollments connectionId).enrollments,
      row.connectionId = connectionId → row.revokedAt ≠ none := by
  intro row hrow hconnection
  rcases mem_updateWhere.mp hrow with ⟨-, hcondition⟩ | ⟨old, -, -, rfl⟩
  · intro hlive
    simp [hconnection, hlive] at hcondition
  · simp

theorem evolves_revokeConnectionInternal {connectionId : Id}
    (hmandate : mandate.revokes connectionId) (hdrawn : connectionId < s.nextId)
    (reason : String) :
    s.Evolves mandate (s.revokeConnectionInternal connectionId reason) := by
  let granted := s.revokeAllGrantsForConnection connectionId reason
  let enrolled := granted.revokeEnrollments connectionId
  let ended := enrolled.setConnectionState connectionId .revoked (some reason)
  have hgranted : s.Evolves mandate granted := evolves_revokeAllGrantsForConnection _ _
  have henrolled : granted.Evolves mandate enrolled := evolves_revokeEnrollments _
  have hended : enrolled.Evolves mandate ended := evolves_setConnectionState _ _ _
  have hrevoked : ended.Revoked connectionId :=
    { drawn := Nat.lt_of_lt_of_le hdrawn
        ((hgranted.trans henrolled).trans hended).nextId_le
      connections := by
        intro row hrow hid
        rcases mem_updateWhere.mp hrow with ⟨-, hcondition⟩ | ⟨old, -, -, rfl⟩
        · simpa [hid] using hcondition
        · rfl
      enrollments := revokeEnrollments_revoked connectionId
      grants := revokeAllGrants_revoked connectionId reason }
  exact ((hgranted.trans henrolled).trans hended).trans
    (evolves_recordRevoked hmandate hrevoked)

theorem requireConnection_mem {id : Id} {connection : ConnectionRow}
    (hrequire : s.requireConnection id = .ok connection) :
    connection ∈ s.connections ∧ connection.id = id := by
  rw [requireConnection] at hrequire
  cases hfind : s.findConnection id with
  | none => simp [hfind] at hrequire
  | some found =>
      simp only [hfind, Except.ok.injEq] at hrequire
      rw [← hrequire]
      exact ⟨mem_of_lookup hfind, key_of_lookup hfind⟩

theorem evolves_revoke (hs : s.WellFormed) (id : Id) (reason : Option String)
    (hmandate : mandate.revokes id) : s.Evolves mandate (s.revoke id reason).2 := by
  rw [revoke]
  cases hrequire : s.requireConnection id with
  | error error => exact Evolves.refl mandate s
  | ok connection =>
      obtain ⟨hmem, hid⟩ := requireConnection_mem hrequire
      dsimp only
      split
      · exact Evolves.refl mandate s
      · exact evolves_revokeConnectionInternal hmandate (hid ▸ hs.connection_lt _ hmem) _

theorem evolves_delete (hs : s.WellFormed) (id : Id) (hmandate : mandate.revokes id) :
    s.Evolves mandate (s.delete id).2 := by
  rw [delete]
  cases hrequire : s.requireConnection id with
  | error error => exact Evolves.refl mandate s
  | ok connection =>
      obtain ⟨hmem, hid⟩ := requireConnection_mem hrequire
      dsimp only
      split
      · exact evolves_deleteConnection id
      · exact (evolves_revokeConnectionInternal hmandate
          (hid ▸ hs.connection_lt _ hmem) _).trans (evolves_deleteConnection id)

/-- A fold over rows of `s` of steps that evolve wherever those rows are drawn. -/
theorem evolves_foldl_drawn {next : Server → ConnectionRow → Server}
    (items : List ConnectionRow) (s : Server)
    (hdrawn : ∀ item ∈ items, item.id < s.nextId)
    (hnext : ∀ (s : Server), ∀ item ∈ items, item.id < s.nextId →
      s.Evolves mandate (next s item)) :
    s.Evolves mandate (items.foldl next s) := by
  induction items generalizing s with
  | nil => exact Evolves.refl mandate s
  | cons item items ih =>
      have hfirst : s.Evolves mandate (next s item) :=
        hnext s item List.mem_cons_self (hdrawn item List.mem_cons_self)
      refine hfirst.trans (ih (next s item) ?_ ?_)
      · intro other hother
        exact Nat.lt_of_lt_of_le (hdrawn other (List.mem_cons_of_mem item hother))
          hfirst.nextId_le
      · exact fun s other hother => hnext s other (List.mem_cons_of_mem item hother)

theorem evolves_mailboxEvent (hs : s.WellFormed) (mailbox : String) (event : MailboxEvent)
    (hmandate : ∀ binding, s.findLiveByMailbox mailbox = some binding → event = .deleted →
      ∀ row ∈ s.listByBinding binding.id, mandate.revokes row.id) :
    s.Evolves mandate (s.mailboxEvent mailbox event) := by
  rw [mailboxEvent]
  cases hfind : s.findLiveByMailbox mailbox with
  | none => exact Evolves.refl mandate s
  | some binding =>
      cases event with
      | passwordChanged => exact evolves_invalidateBinding _ _ _
      | deleted =>
          refine (evolves_foldl_drawn _ s ?_ ?_).trans (Evolves.of_tracked rfl)
          · intro row hrow
            exact hs.connection_lt row (List.mem_filter.mp hrow).1
          · intro s' row hrow hdrawn
            split
            · exact Evolves.refl mandate s'
            · exact evolves_revokeConnectionInternal
                (hmandate binding hfind rfl row hrow) hdrawn _

end Connections

end Server

end Mcp

end MailPanel
