import MailPanel.McpQuiet

/-
What happens to a mailbox: its binding changes state, its credential is stored or
wiped, and what bars it cuts its connections off.
-/

namespace MailPanel

namespace Mcp

open RowTable

/-- States in which the mailbox password is not to be used. -/
def BindingState.barred : BindingState → Bool
  | .stale | .invalid | .revoked => true
  | .active | .mailboxMissing => false

namespace Server

variable {s t u : Server}

/-- The binding stays the same one; barred or revoked, it was so before, or its
connections are cut off and its end is dated. -/
def Minds (s t : Server) (old row : BindingRow) : Prop :=
  row.id = old.id ∧
    (row.state.barred = true → old.state.barred = true ∨
      ∀ connection ∈ s.connections, connection.bindingId = row.id → t.CutOff connection.id) ∧
    (row.state = .revoked →
      row.revokedAt ≠ none ∨ (old.state = .revoked ∧ row.revokedAt = old.revokedAt))

theorem Minds.refl (s t : Server) (row : BindingRow) : s.Minds t row row :=
  ⟨rfl, Or.inl, fun h => Or.inr ⟨h, rfl⟩⟩

/-- What a step on mailboxes does to grants, connections and bindings. -/
structure Tends (s t : Server) : Prop extends s.Withdraws t where
  bindings : Continues (s.Minds t)
    (fun row => DrawnBetween s t row.id ∧ row.state.barred = false) s.bindings t.bindings
  bindingIds : (∀ row ∈ s.bindings, row.id < s.nextId) →
    (s.bindings.map BindingRow.id).Nodup → (t.bindings.map BindingRow.id).Nodup

/-- Revoked connections, and connections of barred mailboxes, are cut off: they have no live
grant or token left. The rest are the facts about ids that keep this true. -/
structure Curbed (s : Server) : Prop where
  connection_lt : ∀ row ∈ s.connections, row.id < s.nextId
  grant_lt : ∀ row ∈ s.grants, row.connectionId < s.nextId
  binding_lt : ∀ row ∈ s.bindings, row.id < s.nextId
  binding_nodup : (s.bindings.map BindingRow.id).Nodup
  revokedAt : ∀ row ∈ s.bindings, row.state = .revoked → row.revokedAt ≠ none
  revoked : ∀ row ∈ s.connections, row.state = .revoked → s.CutOff row.id
  barred : ∀ binding ∈ s.bindings, binding.state.barred = true → ∀ row ∈ s.connections,
    row.bindingId = binding.id → s.CutOff row.id

theorem Curbed.grant_lt_withdraws (hs : s.Curbed) (h : s.Withdraws t) :
    ∀ row ∈ t.grants, row.connectionId < s.nextId := by
  apply h.grants.forall _ (fun _ => False.elim) hs.grant_lt
  intro old row hgoesOn hold
  rw [hgoesOn.1]
  exact hold

/-- No grant reaches back to a connection before it was there, so that a new connection has
none. -/
theorem Curbed.drawn_cutOff (hs : s.Curbed) (h : s.Withdraws t) {id : Id}
    (hdrawn : DrawnBetween s t id) : t.CutOff id := by
  intro row hrow hconnection
  have hlt := hs.grant_lt_withdraws h row hrow
  rw [hconnection] at hlt
  exact absurd hlt (Nat.not_lt.mpr hdrawn.1)

/-- What is curbed stays curbed under steps that tend to the mailboxes: such steps bar or
withdraw, and never give back what was withdrawn. -/
theorem Curbed.tends (hs : s.Curbed) (h : s.Tends t) : t.Curbed where
  connection_lt := by
    apply h.connections.key_lt ConnectionRow.id _ _ h.nextId_le hs.connection_lt
    · exact fun _ _ hbound => hbound.1
    · exact fun _ hnew => hnew.1.2
  grant_lt := fun row hrow =>
    Nat.lt_of_lt_of_le (hs.grant_lt_withdraws h.toWithdraws row hrow) h.nextId_le
  binding_lt := by
    apply h.bindings.key_lt BindingRow.id _ _ h.nextId_le hs.binding_lt
    · exact fun _ _ hminds => hminds.1
    · exact fun _ hnew => hnew.1.2
  binding_nodup := h.bindingIds hs.binding_lt hs.binding_nodup
  revokedAt := by
    apply h.bindings.forall _ _ hs.revokedAt
    · intro old row hminds hold hstate
      rcases hminds.2.2 hstate with hdated | ⟨hrevoked, hsame⟩
      · exact hdated
      · rw [hsame]
        exact hold hrevoked
    · intro row hnew hstate
      rw [hstate] at hnew
      cases hnew.2
  revoked := by
    intro row hrow hstate
    rcases h.connections row hrow with ⟨old, hold, hbound⟩ | hnew
    · rcases hbound.2.2 hstate with hrevoked | hcut
      · rw [hbound.1]
        exact (hs.revoked old hold hrevoked).goesOn h.grants
      · exact hcut
    · exact hnew.2 hstate
  barred := by
    intro binding hbinding hbarred row hrow hid
    rcases h.connections row hrow with ⟨old, hold, hbound⟩ | hnew
    · rw [hbound.1]
      rcases h.bindings binding hbinding with ⟨before, hbefore, hminds⟩ | ⟨-, hfree⟩
      · have hold' : old.bindingId = binding.id := hbound.2.1.symm.trans hid
        rcases hminds.2.1 hbarred with hwas | hcut
        · have hcut := hs.barred before hbefore hwas old hold (hold'.trans hminds.1)
          exact hcut.goesOn h.grants
        · exact hcut old hold hold'
      · rw [hfree] at hbarred
        cases hbarred
    · exact hs.drawn_cutOff h.toWithdraws hnew.1

/- Kinds of steps on mailboxes -/

/-- A withdrawing step that leaves the bindings alone tends to them. -/
theorem Tends.of_bindings (h : s.Withdraws t) (hbindings : t.bindings = s.bindings) :
    s.Tends t where
  toWithdraws := h
  bindings := by
    rw [hbindings]
    exact Continues.refl (Minds.refl s t) _
  bindingIds := by
    rw [hbindings]
    exact fun _ h => h

theorem Quiet.tends (h : s.Quiet t) : s.Tends t :=
  Tends.of_bindings h.toWithdraws h.bindings

theorem tends_putCredential (bindingId : Id) (keyId password : String) :
    s.Tends (s.putCredential bindingId keyId password) := by
  rw [putCredential]
  split
  · exact Tends.of_bindings (Withdraws.of_frame (Nat.le_refl _) rfl) rfl
  · exact Tends.of_bindings (Withdraws.of_frame (Nat.le_refl _) rfl) rfl

/-- An update of bindings that bars none. Most updates of a binding are of this kind: they stamp
a time, or set a state that is not barred. -/
theorem tends_updateBindings {condition : BindingRow → Bool} {change : BindingRow → BindingRow}
    (hid : ∀ row, (change row).id = row.id)
    (hchange : ∀ row, (change row).state.barred = true →
      (change row).state = row.state ∧ (change row).revokedAt = row.revokedAt) :
    s.Tends { s with bindings := updateWhere s.bindings condition change } where
  toWithdraws := Withdraws.of_frame (Nat.le_refl _) rfl
  bindings := by
    apply Continues.updateWhere (Minds.refl s _)
    intro row _ _
    refine ⟨hid row, ?_, ?_⟩
    · intro hbarred
      have hsame := hchange row hbarred
      rw [hsame.1] at hbarred
      exact Or.inl hbarred
    · intro hrevoked
      have hsame := hchange row (by rw [hrevoked]; rfl)
      exact Or.inr ⟨hsame.1.symm.trans hrevoked, hsame.2⟩
  bindingIds := by
    intro _ hnodup
    dsimp only
    rw [map_updateWhere BindingRow.id fun row _ => hid row]
    exact hnodup

/-- A binding may change to a state that does not bar it without anything else happening. -/
theorem tends_setBindingState (id : Id) {state : BindingState} (reason : Option String)
    (hstate : state.barred = false) : s.Tends (s.setBindingState id state reason) := by
  refine tends_updateBindings (fun _ => rfl) ?_
  intro row hbarred
  rw [hstate] at hbarred
  cases hbarred

theorem tends_reanchor (id : Id) (fingerprint : String) :
    s.Tends (s.reanchor id fingerprint) := by
  refine tends_updateBindings (fun _ => rfl) ?_
  intro row hbarred
  cases hbarred

theorem tends_markVerified (id : Id) : s.Tends (s.markVerified id) :=
  tends_updateBindings (fun _ => rfl) fun _ _ => ⟨rfl, rfl⟩

theorem tends_recordError (id : Id) (message : String) : s.Tends (s.recordError id message) :=
  tends_updateBindings (fun _ => rfl) fun _ _ => ⟨rfl, rfl⟩

/-- A new binding is active, and no connection refers to it yet. -/
theorem tends_createBinding {Error : Type} (mailbox fingerprint : String) :
    s.Tends (s.createBinding mailbox fingerprint : Except Error BindingRow × Server).2 where
  toWithdraws := Withdraws.of_frame (Nat.le_succ _) rfl
  bindings := by
    apply Continues.append (Minds.refl s _)
    intro row hrow
    rw [List.mem_singleton.mp hrow]
    exact ⟨⟨Nat.le_refl _, Nat.lt_succ_self _⟩, rfl⟩
  bindingIds := by
    intro hlt hnodup
    simp only [createBinding, List.map_append, List.map_cons, List.map_nil]
    refine List.nodup_append.mpr ⟨hnodup, by simp, ?_⟩
    intro old hold new hnew heq
    obtain ⟨binding, hbinding, rfl⟩ := List.mem_map.mp hold
    rw [List.mem_singleton.mp hnew] at heq
    exact Nat.lt_irrefl _ (heq ▸ hlt binding hbinding)

/-- The mailbox is barred: its state is set, its credential is wiped and its connections are cut
off, and nothing but what a withdrawal may touch is changed. -/
structure Barring (s t : Server) (id : Id) (state : BindingState) : Prop
    extends s.Withdraws t where
  bindings : ∃ (u : Server) (reason : Option String), u.bindings = s.bindings ∧
    t.bindings = (u.setBindingState id state reason).bindings
  credentials : t.credentials = (s.deleteCredential id).credentials
  cut : ∀ row ∈ s.listByBinding id, t.CutOff row.id

/-- Barring a binding together with everything that depends on it is a tending step. -/
theorem Barring.tends {id : Id} {state : BindingState} (h : s.Barring t id state) :
    s.Tends t where
  toWithdraws := h.toWithdraws
  bindings := by
    obtain ⟨u, reason, hsame, hbindings⟩ := h.bindings
    rw [hbindings, ← hsame]
    apply Continues.updateWhere (Minds.refl s t)
    intro row _ hcondition
    have hid : row.id = id := by simpa using hcondition
    refine ⟨rfl, ?_, ?_⟩
    · intro _
      refine Or.inr fun connection hconnection hbinding => h.cut connection ?_
      exact List.mem_filter.mpr ⟨hconnection, by simpa [← hid] using hbinding⟩
    · intro hrevoked
      refine Or.inl ?_
      dsimp only at hrevoked ⊢
      rw [if_pos hrevoked]
      exact Option.some_ne_none u.now
  bindingIds := by
    obtain ⟨u, reason, hsame, hbindings⟩ := h.bindings
    intro _ hnodup
    rw [hbindings, setBindingState, ← hsame] at *
    dsimp only
    rw [map_updateWhere BindingRow.id]
    · exact hnodup
    · exact fun _ _ => rfl

/-- One connection after the other is cut off, or was so from the start. -/
theorem foldl_cutOff {next : Server → ConnectionRow → Server}
    (hnext : ∀ (s : Server) row, s.Quiet (next s row)) {row : ConnectionRow}
    (hcut : s.CutOff row.id ∨ ∀ s : Server, (next s row).CutOff row.id)
    {rows : List ConnectionRow} (hrow : row ∈ rows) : (rows.foldl next s).CutOff row.id := by
  induction rows generalizing s with
  | nil => cases hrow
  | cons first rest ih =>
      rw [List.foldl_cons]
      rcases List.mem_cons.mp hrow with heq | hrest
      · have hfirst : (next s first).CutOff row.id := by
          rcases hcut with hcut | hcut
          · exact hcut.goesOn (hnext s first).grants
          · rw [← heq]
            exact hcut s
        exact hfirst.goesOn (quiet_foldl hnext rest (next s first)).grants
      · refine ih ?_ hrest
        exact hcut.imp (fun h => h.goesOn (hnext s first).grants) fun h => h

/-- The invalidation takes the credential and the grants of the mailbox's connections along. -/
theorem barring_invalidateBinding (binding : BindingRow) (state : BindingState)
    (reason : String) : s.Barring (s.invalidateBinding binding state reason) binding.id state := by
  let wiped := (s.deleteCredential binding.id).setBindingState binding.id state (some reason)
  have hwiped : s.Withdraws wiped := Withdraws.of_frame (Nat.le_refl _) rfl
  have hnext : ∀ (s : Server) (row : ConnectionRow),
      s.Quiet (s.revokeAllGrantsForConnection row.id reason) :=
    fun _ _ => quiet_revokeAllGrantsForConnection _ _
  have hfold : wiped.Quiet (s.invalidateBinding binding state reason) :=
    quiet_foldl hnext (s.listByBinding binding.id) wiped
  refine ⟨hwiped.trans hfold.toWithdraws,
    ⟨s.deleteCredential binding.id, some reason, rfl, hfold.bindings⟩, hfold.credentials, ?_⟩
  intro row hrow
  exact foldl_cutOff hnext (Or.inr fun _ => revokeAllGrants_revoked _ _) hrow

/-- After the revocation of a connection none of its grants is live. -/
theorem revokeConnectionInternal_cutOff (connectionId : Id) (reason : String) :
    (s.revokeConnectionInternal connectionId reason).CutOff connectionId :=
  revokeAllGrants_revoked connectionId reason

/-- A deleted mailbox leaves out the connections that were revoked before. -/
theorem barring_deleted (hs : s.Curbed) {mailbox : String} {binding : BindingRow}
    (hfind : s.findLiveByMailbox mailbox = some binding) :
    s.Barring (s.mailboxEvent mailbox .deleted) binding.id .revoked := by
  let next := fun (s : Server) (connection : ConnectionRow) =>
    if connection.state = .revoked then s
    else s.revokeConnectionInternal connection.id "The mailbox was deleted."
  let revoked := (s.listByBinding binding.id).foldl next s
  have hevent : s.mailboxEvent mailbox .deleted =
      (revoked.deleteCredential binding.id).setBindingState binding.id .revoked
        (some "The mailbox was deleted.") := by
    rw [mailboxEvent, hfind]
  have hnext : ∀ (s : Server) (row : ConnectionRow), s.Quiet (next s row) := by
    intro s row
    by_cases hstate : row.state = .revoked
    · simp only [next, if_pos hstate]
      exact Quiet.refl s
    · simp only [next, if_neg hstate]
      exact quiet_revokeConnectionInternal _ _
  have hfold : s.Quiet revoked := quiet_foldl hnext _ s
  have hwiped : revoked.Withdraws (s.mailboxEvent mailbox .deleted) := by
    rw [hevent]
    exact Withdraws.of_frame (Nat.le_refl _) rfl
  refine ⟨hfold.toWithdraws.trans hwiped, ⟨revoked.deleteCredential binding.id,
    some "The mailbox was deleted.", hfold.bindings, by rw [hevent]⟩, ?_, ?_⟩
  · rw [hevent]
    simp only [deleteCredential, setBindingState, hfold.credentials]
  · intro row hrow
    have hcut : revoked.CutOff row.id := by
      apply foldl_cutOff hnext _ hrow
      by_cases hstate : row.state = .revoked
      · exact Or.inl (hs.revoked row (List.mem_filter.mp hrow).1 hstate)
      · refine Or.inr fun s => ?_
        simp only [next, if_neg hstate]
        exact revokeConnectionInternal_cutOff _ _
    exact hcut.goesOn hwiped.grants

/- The postmaster and the mail server -/

/-- From a curbed server the step only withdraws, and leaves a curbed one. -/
def Curbs (s t : Server) : Prop :=
  s.Curbed → s.Withdraws t ∧ t.Curbed

theorem Curbs.refl (s : Server) : s.Curbs s :=
  fun hs => ⟨(Quiet.refl s).toWithdraws, hs⟩

/-- Curbing steps compose, so that an operation curbs when its parts do. -/
theorem Curbs.trans (hfirst : s.Curbs t) (hsecond : t.Curbs u) : s.Curbs u := by
  intro hs
  obtain ⟨hwithdraws, ht⟩ := hfirst hs
  obtain ⟨hwithdraws', hu⟩ := hsecond ht
  exact ⟨hwithdraws.trans hwithdraws', hu⟩

theorem Tends.curbs (h : s.Tends t) : s.Curbs t :=
  fun hs => ⟨h.toWithdraws, hs.tends h⟩

theorem Quiet.curbs (h : s.Quiet t) : s.Curbs t :=
  h.tends.curbs

/-- Finding, bringing back or creating a binding never leaves a barred one with live grants. -/
theorem curbs_resolveBinding (s : Server) (mailbox fingerprint : String) :
    s.Curbs (s.resolveBinding mailbox fingerprint).2 := by
  rw [resolveBinding]
  split
  · exact (tends_createBinding mailbox fingerprint).curbs
  · rename_i existing _
    have hresolved : s.Curbs (if existing.fingerprint ≠ fingerprint then
        (s.invalidateBinding existing .stale
          "The mailbox password or identity changed.").reanchor existing.id fingerprint
      else if existing.state = .mailboxMissing then
        s.setBindingState existing.id .active none
      else s) := by
      split
      · exact (barring_invalidateBinding existing _ _).tends.curbs.trans
          (tends_reanchor _ _).curbs
      · split
        · exact (tends_setBindingState _ none rfl).curbs
        · exact Curbs.refl s
    dsimp only
    split
    · exact hresolved
    · exact hresolved

theorem curbs_beginCreate (request : CreateRequest) :
    s.Curbs (s.beginCreate request).2 := by
  have hresolve := curbs_resolveBinding s request.mailbox request.mailboxFingerprint
  rw [beginCreate]
  split
  · exact Curbs.refl s
  · split
    · exact Curbs.refl s
    · split
      · rename_i heq
        rw [heq] at hresolve
        exact hresolve
      · rename_i heq
        rw [heq] at hresolve
        split
        · exact hresolve
        · exact hresolve

theorem curbs_beginUpdateCredentials (id : Id) (fingerprint : String) :
    s.Curbs (s.beginUpdateCredentials id fingerprint).2 := by
  rw [beginUpdateCredentials]
  split
  · exact Curbs.refl s
  · rename_i connection _
    have hresolve := curbs_resolveBinding s connection.mailbox fingerprint
    split
    · rename_i heq
      rw [heq] at hresolve
      exact hresolve
    · rename_i heq
      rw [heq] at hresolve
      split
      · exact hresolve
      · exact hresolve

theorem curbs_finishProvision (s : Server) (bindingId : Id) (password : String)
    (result : VerifyResult) :
    s.Curbs (s.finishProvision bindingId password result).2 := by
  rw [finishProvision]
  split
  · split
    · exact Curbs.refl s
    · exact Curbs.refl s
  · split
    · exact Curbs.refl s
    · exact (tends_putCredential _ _ _).curbs.trans (tends_markVerified _).curbs

/-- The end of an update of the credential sets a state that does not bar. -/
theorem curbs_finishUpdateCredentials (binding : BindingRow) (password : String)
    (result : VerifyResult) :
    s.Curbs (s.finishUpdateCredentials binding password result).2 := by
  have hprovision := curbs_finishProvision s binding.id password result
  rw [finishUpdateCredentials]
  split
  · rename_i heq
    rw [heq] at hprovision
    exact hprovision
  · rename_i heq
    rw [heq] at hprovision
    split
    · exact hprovision.trans (tends_setBindingState _ none rfl).curbs
    · exact hprovision

theorem curbs_markCredentialRejected (binding : BindingRow) :
    s.Curbs (s.markCredentialRejected binding) :=
  (barring_invalidateBinding binding _ _).tends.curbs

theorem curbs_finishTest (binding : BindingRow) (result : VerifyResult) :
    s.Curbs (s.finishTest binding result) := by
  rw [finishTest]
  split
  · exact (tends_markVerified _).curbs
  · split
    · exact curbs_markCredentialRejected binding
    · exact (tends_recordError _ _).curbs

/-- Both kinds of event bar the binding with everything that depends on it. -/
theorem curbs_mailboxEvent (mailbox : String) (event : MailboxEvent) :
    s.Curbs (s.mailboxEvent mailbox event) := by
  intro hs
  cases hfind : s.findLiveByMailbox mailbox with
  | none =>
      rw [mailboxEvent, hfind]
      exact Curbs.refl s hs
  | some binding =>
      cases event with
      | passwordChanged =>
          rw [mailboxEvent, hfind]
          exact (barring_invalidateBinding binding _ _).tends.curbs hs
      | deleted => exact (barring_deleted hs hfind).tends.curbs hs

/-- The comparison of one binding with the list of mailboxes bars it in the same way. -/
theorem curbs_reconcileBinding (entries : List (String × String)) (binding : BindingRow) :
    s.Curbs (s.reconcileBinding entries binding) := by
  rw [reconcileBinding]
  split
  · split
    · exact (tends_setBindingState _ _ rfl).curbs
    · exact Curbs.refl s
  · split
    · split
      · exact (barring_invalidateBinding binding _ _).tends.curbs
      · exact Curbs.refl s
    · split
      · exact (tends_setBindingState _ _ rfl).curbs
      · exact Curbs.refl s

/-- The rule for the loops over bindings. -/
theorem curbs_foldl {Item : Type} {next : Server → Item → Server}
    (hnext : ∀ (s : Server) item, s.Curbs (next s item)) (items : List Item) (s : Server) :
    s.Curbs (items.foldl next s) := by
  induction items generalizing s with
  | nil => exact Curbs.refl s
  | cons item items ih => exact (hnext s item).trans (ih (next s item))

theorem curbs_reconcile (entries : List (String × String)) :
    s.Curbs (s.reconcile entries) :=
  curbs_foldl (fun _ binding => curbs_reconcileBinding _ binding) _ s

end Server

namespace System

variable {env : Env} {system : System} {label : Label} {server : Server}

/-- A step that mints no tokens only withdraws. The two cases that do mint carry everything that
was checked before, so that a barred mailbox rules them out. -/
inductive Minted (env : Env) (system : System) (label : Label) : Server → Prop
  | none {server : Server} (curbs : system.server.Curbs server) :
      Minted env system label server
  | granted {client : OAuthClientRow} {input : ExchangeInput} {code : AuthorizationCodeRow}
      {codeVerifier : String} {scopes : List McpScope}
      (redemption : system.server.Redemption env input code codeVerifier scopes) :
      Minted env system label
        ((system.server.redeemed code).grantCode client code scopes codeVerifier).2
  | refreshed {index : Nat} {resolved : Except OAuthError OAuthClientRow}
      {presented : PresentedSecret} {form : TokenForm} {client : OAuthClientRow}
      {token : RefreshTokenRow} {grant : GrantRow} {scopes : List McpScope}
      (refreshing : system.server.Refreshing
        ⟨client, form.refreshToken, form.scope, form.resource⟩ token grant scopes)
      (label_eq : label = .resume index .done)
      (task_at : system.tasks[index]? =
        some (.resolvingClient (.resolved resolved) (.token presented form))) :
      Minted env system label (system.server.refreshed token grant scopes)

theorem Tended.minted (h : Tended env system label server) :
    Minted env system label server := by
  cases h with
  | quiet hquiet => exact .none hquiet.curbs
  | granted hredemption => exact .granted hredemption
  | refreshed hrefreshing hlabel htask => exact .refreshed hrefreshing hlabel htask
  | rejected _ _ => exact .none (Server.curbs_markCredentialRejected _)
  | creating _ hquiet => exact .none ((Server.curbs_beginCreate _).trans hquiet.curbs)
  | updating _ => exact .none (Server.curbs_beginUpdateCredentials _ _)
  | mailbox _ => exact .none (Server.curbs_mailboxEvent _ _)
  | reconciled _ => exact .none (Server.curbs_reconcile _)
  | provisioned _ _ hquiet =>
      exact .none ((Server.curbs_finishProvision _ _ _ _).trans hquiet.curbs)
  | replaced _ _ => exact .none (Server.curbs_finishUpdateCredentials _ _ _)
  | tested _ _ => exact .none (Server.curbs_finishTest _ _)

/-- One step of the whole service: unless it mints tokens, in one of the two listed ways, it
only withdraws. -/
theorem step_minted (env : Env) (system : System) (label : Label) :
    Minted env system label (system.step env label).server :=
  (step_tended env system label).minted

end System

end Mcp

end MailPanel
