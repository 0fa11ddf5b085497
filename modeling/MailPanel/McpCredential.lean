import MailPanel.McpBarred

/-
Revoked bindings stay revoked and barred ones keep no password, as long as what comes
back from the mail server is about a binding that still is as it was.
-/

namespace MailPanel

namespace Mcp

open RowTable

namespace Server

variable {s t u : Server} {id : Id}

/-- The state of the binding with this id, if there is one, which is all that the results below
ask of a binding. -/
def bindingState (s : Server) (id : Id) : Option BindingState :=
  (s.findBinding id).map BindingRow.state

/-- No barred binding has a stored credential, so that a mailbox that was given up cannot be
opened. -/
def Trusted (s : Server) : Prop :=
  ∀ id state, s.bindingState id = some state → state.barred = true → s.getCredential id = none

/-- The step stores no credential for a barred binding and revives no revoked one. -/
structure Guards (s t : Server) : Prop where
  trusted : s.Trusted → t.Trusted
  revoked : ∀ id, s.bindingState id = some .revoked → t.bindingState id = some .revoked

theorem Guards.refl (s : Server) : s.Guards s :=
  ⟨fun h => h, fun _ h => h⟩

/-- The guarantee composes along a run. -/
theorem Guards.trans (hfirst : s.Guards t) (hsecond : t.Guards u) : s.Guards u :=
  ⟨hsecond.trusted ∘ hfirst.trusted, fun id h => hsecond.revoked id (hfirst.revoked id h)⟩

/-- A step that changes neither a state nor a credential, as they are looked up, gives the
guarantee at once. -/
theorem Guards.of_lookups (hstate : ∀ id, t.bindingState id = s.bindingState id)
    (hcredential : ∀ id, t.getCredential id = s.getCredential id) : s.Guards t where
  trusted := by
    intro hs id state hid hbarred
    rw [hcredential]
    exact hs id state (hstate id ▸ hid) hbarred
  revoked := by
    intro id hrevoked
    rw [hstate]
    exact hrevoked

theorem bindingState_congr (hbindings : t.bindings = s.bindings) (id : Id) :
    t.bindingState id = s.bindingState id := by
  rw [bindingState, bindingState, findBinding, findBinding, hbindings]

theorem getCredential_congr (hcredentials : t.credentials = s.credentials) (id : Id) :
    t.getCredential id = s.getCredential id := by
  rw [getCredential, getCredential, hcredentials]

/-- Steps on other tables leave both lookups alone. -/
theorem Guards.of_mailboxes (h : t.mailboxes = s.mailboxes) : s.Guards t := by
  simp only [mailboxes, Prod.mk.injEq] at h
  exact Guards.of_lookups (bindingState_congr h.1) (getCredential_congr h.2)

/-- The quiet steps are of this kind, which disposes of most of the service. -/
theorem Quiet.guards (h : s.Quiet t) : s.Guards t :=
  Guards.of_lookups (bindingState_congr h.bindings) (getCredential_congr h.credentials)

theorem guards_mintPair (s : Server) (grantId connectionId : Id) (scopes : List McpScope)
    (resource : String) (parentRefreshId : Option Id) :
    s.Guards (s.mintPair grantId connectionId scopes resource parentRefreshId).2 :=
  Guards.of_mailboxes rfl

theorem guards_grantCode (s : Server) (client : OAuthClientRow) (code : AuthorizationCodeRow)
    (scopes : List McpScope) (codeVerifier : String) :
    s.Guards (s.grantCode client code scopes codeVerifier).2 := by
  have hstored : s.Guards (s.storeGrant client code scopes codeVerifier) :=
    Guards.of_mailboxes rfl
  have htouched := hstored.trans (quiet_touchAuthorized code.connectionId).guards
  exact htouched.trans (guards_mintPair _ _ _ _ _ _)

/- Lookups after updates -/

/-- A lookup after an update of the table finds the row that the update has made of what it
found before. -/
theorem findBinding_update {condition : BindingRow → Bool} {change : BindingRow → BindingRow}
    (hbindings : t.bindings = updateWhere s.bindings condition change)
    (hid : ∀ row, (change row).id = row.id) (id : Id) :
    t.findBinding id =
      (s.findBinding id).map fun row => if condition row then change row else row := by
  rw [findBinding, hbindings]
  exact lookup_updateWhere (fun row _ => hid row) id

/-- An update that leaves states as they are leaves every looked-up state as it is. -/
theorem bindingState_update {condition : BindingRow → Bool} {change : BindingRow → BindingRow}
    (hbindings : t.bindings = updateWhere s.bindings condition change)
    (hchange : ∀ row, (change row).id = row.id ∧ (change row).state = row.state) (id : Id) :
    t.bindingState id = s.bindingState id := by
  rw [bindingState, findBinding_update hbindings fun row => (hchange row).1, Option.map_map]
  apply congrFun
  apply congrArg
  funext row
  by_cases hcondition : condition row = true
  · simp [hcondition, (hchange row).2]
  · simp [hcondition]

/-- A change of state is seen at its own id and nowhere else. -/
theorem bindingState_set (u : Server) (hsame : u.bindings = s.bindings) (wanted : Id)
    (state : BindingState) (reason : Option String)
    (hbindings : t.bindings = (u.setBindingState wanted state reason).bindings) (id : Id) :
    t.bindingState id =
      if id = wanted then (s.bindingState id).map fun _ => state else s.bindingState id := by
  rw [setBindingState] at hbindings
  dsimp only at hbindings
  rw [hsame] at hbindings
  rw [bindingState, findBinding_update hbindings fun _ => rfl, bindingState]
  cases hfind : s.findBinding id with
  | none => simp
  | some row =>
      have hid : row.id = id := key_of_lookup hfind
      by_cases hwanted : id = wanted
      · simp [hid, hwanted]
      · simp [hid, hwanted]

/-- A deletion is seen at its own binding and nowhere else. -/
theorem getCredential_delete (gone id : Id) :
    (s.deleteCredential gone).getCredential id =
      if id = gone then none else s.getCredential id :=
  lookup_filter_ne gone id

/-- A stored credential is found at its own binding, and the others are as they were. -/
theorem getCredential_put (bindingId : Id) (keyId password : String) :
    (∀ id, id ≠ bindingId →
      (s.putCredential bindingId keyId password).getCredential id = s.getCredential id) ∧
    (s.putCredential bindingId keyId password).getCredential bindingId ≠ none := by
  cases hfind : s.getCredential bindingId with
  | none =>
      have hput : s.putCredential bindingId keyId password =
          { s with credentials := s.credentials ++ [⟨bindingId, keyId, password, 1⟩] } := by
        rw [putCredential, hfind]
      have happend : ∀ wanted, lookup StoredCredential.bindingId wanted
          (s.credentials ++ [⟨bindingId, keyId, password, 1⟩]) = _ :=
        fun wanted => lookup_append wanted _
      rw [hput]
      constructor
      · intro id hne
        rw [getCredential, happend, if_neg (Ne.symm hne), Option.or_none]
        rfl
      · rw [getCredential, happend, if_pos rfl]
        exact fun hnone => by simp at hnone
  | some existing =>
      have hput : s.putCredential bindingId keyId password =
          { s with credentials :=
              updateWhere s.credentials (fun row => row.bindingId = bindingId) fun _ =>
                ⟨bindingId, keyId, password, existing.version + 1⟩ } := by
        rw [putCredential, hfind]
      have hupdate : ∀ wanted, lookup StoredCredential.bindingId wanted
          (updateWhere s.credentials (fun row => row.bindingId = bindingId) fun _ =>
            ⟨bindingId, keyId, password, existing.version + 1⟩) = _ :=
        lookup_updateWhere fun row hrow => (of_decide_eq_true hrow).symm
      rw [hput]
      constructor
      · intro id hne
        rw [getCredential, hupdate]
        cases hid : lookup StoredCredential.bindingId id s.credentials with
        | none => simp [getCredential, hid]
        | some row =>
            have hkey : row.bindingId = id := key_of_lookup hid
            simp [getCredential, hid, hkey, hne]
      · rw [getCredential] at hfind ⊢
        rw [hupdate, hfind]
        simp

/- Kinds of steps on mailboxes -/

theorem bindingState_markVerified (bindingId id : Id) :
    (s.markVerified bindingId).bindingState id = s.bindingState id := by
  refine bindingState_update rfl ?_ id
  intro row
  exact ⟨rfl, rfl⟩

theorem guards_markVerified (bindingId : Id) : s.Guards (s.markVerified bindingId) :=
  Guards.of_lookups (bindingState_markVerified bindingId) fun _ => rfl

theorem guards_recordError (bindingId : Id) (message : String) :
    s.Guards (s.recordError bindingId message) := by
  refine Guards.of_lookups (bindingState_update rfl ?_) fun _ => rfl
  intro row
  exact ⟨rfl, rfl⟩

theorem bindingState_setBindingState (wanted : Id) (state : BindingState)
    (reason : Option String) (id : Id) :
    (s.setBindingState wanted state reason).bindingState id =
      if id = wanted then (s.bindingState id).map fun _ => state else s.bindingState id :=
  bindingState_set s rfl wanted state reason rfl id

/-- A binding that is not revoked goes to a state in which it is not barred. -/
theorem guards_setBindingState {state : BindingState} (reason : Option String)
    (hstate : state.barred = false) (hlive : s.bindingState id ≠ some .revoked) :
    s.Guards (s.setBindingState id state reason) where
  trusted := by
    intro hs other found hfound hbarred
    rw [bindingState_setBindingState] at hfound
    by_cases hother : other = id
    · rw [if_pos hother] at hfound
      obtain ⟨_, -, rfl⟩ := Option.map_eq_some_iff.mp hfound
      rw [hstate] at hbarred
      cases hbarred
    · rw [if_neg hother] at hfound
      exact hs other found hfound hbarred
  revoked := by
    intro other hrevoked
    rw [bindingState_setBindingState]
    by_cases hother : other = id
    · exact absurd (hother ▸ hrevoked) hlive
    · rw [if_neg hother]
      exact hrevoked

theorem Barring.bindingState {state : BindingState} (h : s.Barring t id state) (other : Id) :
    t.bindingState other =
      if other = id then (s.bindingState other).map fun _ => state
      else s.bindingState other := by
  obtain ⟨u, reason, hsame, hbindings⟩ := h.bindings
  exact bindingState_set u hsame id state reason hbindings other

theorem Barring.getCredential {state : BindingState} (h : s.Barring t id state) (other : Id) :
    t.getCredential other = if other = id then none else s.getCredential other := by
  rw [getCredential_congr h.credentials, getCredential_delete]

theorem Barring.guards {state : BindingState} (h : s.Barring t id state)
    (hlive : state = .revoked ∨ s.bindingState id ≠ some .revoked) : s.Guards t where
  trusted := by
    intro hs other found hfound hbarred
    rw [h.getCredential]
    by_cases hother : other = id
    · rw [if_pos hother]
    · rw [if_neg hother]
      rw [h.bindingState, if_neg hother] at hfound
      exact hs other found hfound hbarred
  revoked := by
    intro other hrevoked
    rw [h.bindingState]
    by_cases hother : other = id
    · rcases hlive with hstate | hlive
      · rw [if_pos hother, hrevoked, hstate]
        rfl
      · exact absurd (hother ▸ hrevoked) hlive
    · rw [if_neg hother]
      exact hrevoked

theorem bindingState_putCredential (bindingId : Id) (keyId password : String) (id : Id) :
    (s.putCredential bindingId keyId password).bindingState id = s.bindingState id := by
  apply bindingState_congr
  rw [putCredential]
  split
  · rfl
  · rfl

/-- A credential may be stored as long as no binding of this id is barred. This is the
hypothesis that a late answer of the mail server can violate. -/
theorem guards_putCredential (keyId password : String)
    (hfree : ∀ state ∈ s.bindingState id, state.barred = false) :
    s.Guards (s.putCredential id keyId password) where
  trusted := by
    intro hs other found hfound hbarred
    rw [bindingState_putCredential] at hfound
    by_cases hother : other = id
    · rw [hfree found (hother ▸ hfound)] at hbarred
      cases hbarred
    · rw [(getCredential_put id keyId password).1 other hother]
      exact hs other found hfound hbarred
  revoked := by
    intro other hrevoked
    rw [bindingState_putCredential]
    exact hrevoked

/-- A binding that is made active may have a credential put just before. This is how an update
of the credentials brings a binding back. -/
theorem guards_reactivate (keyId password : String) (reason : Option String)
    (hlive : s.bindingState id ≠ some .revoked) :
    s.Guards (((s.putCredential id keyId password).markVerified id).setBindingState id .active
      reason) where
  trusted := by
    intro hs other found hfound hbarred
    have hverified : ((s.putCredential id keyId password).markVerified id).bindingState other =
        s.bindingState other := by
      rw [bindingState_markVerified, bindingState_putCredential]
    rw [bindingState_setBindingState, hverified] at hfound
    by_cases hother : other = id
    · rw [if_pos hother] at hfound
      obtain ⟨_, -, rfl⟩ := Option.map_eq_some_iff.mp hfound
      cases hbarred
    · rw [if_neg hother] at hfound
      have hkept : (s.putCredential id keyId password).getCredential other =
          s.getCredential other := (getCredential_put id keyId password).1 other hother
      exact hkept.trans (hs other found hfound hbarred)
  revoked := by
    intro other hrevoked
    have hother : other ≠ id := fun heq => hlive (heq ▸ hrevoked)
    rw [bindingState_setBindingState, if_neg hother, bindingState_markVerified,
      bindingState_putCredential]
    exact hrevoked

/- Live bindings -/

/-- A live binding, as it is found, is not revoked: the stamp and the state go together. -/
theorem Curbed.live (hs : s.Curbed) {binding : BindingRow} (hmem : binding ∈ s.bindings)
    (hlive : binding.revokedAt = none) : s.bindingState binding.id ≠ some .revoked := by
  intro hrevoked
  rw [bindingState, findBinding, lookup_of_mem hs.binding_nodup hmem] at hrevoked
  exact hs.revokedAt binding hmem (Option.some.inj hrevoked) hlive

/-- What the lookup finds is a row of the table without a stamp of revocation. -/
theorem findLiveByMailbox_mem {mailbox : String} {binding : BindingRow}
    (hfind : s.findLiveByMailbox mailbox = some binding) :
    binding ∈ s.bindings ∧ binding.revokedAt = none := by
  have hlive := List.find?_some hfind
  simp only [decide_eq_true_eq] at hlive
  exact ⟨List.mem_of_find?_eq_some hfind, hlive.2⟩

theorem guards_createBinding {Error : Type} (mailbox fingerprint : String) :
    s.Guards (s.createBinding mailbox fingerprint : Except Error BindingRow × Server).2 := by
  have hstate : ∀ id, ((s.createBinding mailbox fingerprint : Except Error BindingRow ×
      Server).2).bindingState id = (s.bindingState id).or
        (if s.nextId = id then some .active else none) := by
    intro id
    simp only [bindingState, findBinding, createBinding]
    rw [lookup_append]
    cases hfind : lookup BindingRow.id id s.bindings with
    | none => by_cases hid : s.nextId = id <;> simp [hid]
    | some row => simp
  constructor
  · intro htrusted id state hid hbarred
    rw [hstate] at hid
    cases hfound : s.bindingState id with
    | none =>
        rw [hfound, Option.none_or] at hid
        split at hid
        · cases hid
          cases hbarred
        · cases hid
    | some found =>
        rw [hfound, Option.some_or] at hid
        exact htrusted id state (hfound.trans hid) hbarred
  · intro id hrevoked
    rw [hstate, hrevoked, Option.some_or]

/-- A reanchored binding is active again, unless its row was left alone for being revoked. -/
theorem bindingState_reanchor (wanted : Id) (fingerprint : String) (id : Id) :
    (s.reanchor wanted fingerprint).bindingState id = s.bindingState id ∨
      id = wanted ∧ (s.reanchor wanted fingerprint).bindingState id = some .active := by
  rw [bindingState, reanchor, findBinding_update rfl (by intro row; rfl), bindingState]
  cases hfind : s.findBinding id with
  | none => exact Or.inl rfl
  | some row =>
      have hid : row.id = id := key_of_lookup hfind
      by_cases hlive : row.id = wanted ∧ row.revokedAt = none
      · refine Or.inr ⟨hid.symm.trans hlive.1, ?_⟩
        simp [hlive]
      · refine Or.inl ?_
        simp [hlive]

/-- Only a binding that is not revoked may come back this way. -/
theorem guards_reanchor (fingerprint : String) (hlive : s.bindingState id ≠ some .revoked) :
    s.Guards (s.reanchor id fingerprint) where
  trusted := by
    intro hs other found hfound hbarred
    rcases bindingState_reanchor id fingerprint other with hsame | ⟨-, hactive⟩
    · exact hs other found (hsame.symm.trans hfound) hbarred
    · rw [hfound] at hactive
      cases hactive
      cases hbarred
  revoked := by
    intro other hrevoked
    rcases bindingState_reanchor id fingerprint other with hsame | ⟨hother, -⟩
    · exact hsame.trans hrevoked
    · exact absurd (hother ▸ hrevoked) hlive

/-- An end other than revocation, for a binding that is not revoked. -/
theorem guards_invalidateBinding {binding : BindingRow} (state : BindingState)
    (reason : String) (hlive : s.bindingState binding.id ≠ some .revoked) :
    s.Guards (s.invalidateBinding binding state reason) :=
  (barring_invalidateBinding binding state reason).guards (Or.inr hlive)

theorem invalidateBinding_bindingState (binding : BindingRow) {state : BindingState}
    (reason : String) (hstate : state ≠ .revoked) :
    (s.invalidateBinding binding state reason).bindingState binding.id ≠ some .revoked := by
  rw [(barring_invalidateBinding binding state reason).bindingState, if_pos rfl]
  intro hrevoked
  obtain ⟨_, -, heq⟩ := Option.map_eq_some_iff.mp hrevoked
  exact hstate heq

/-- A request that names a mailbox finds its live binding, brings it back or creates one, and
revives no revoked one. -/
theorem guards_resolveBinding (hs : s.Curbed) (mailbox fingerprint : String) :
    s.Guards (s.resolveBinding mailbox fingerprint).2 := by
  rw [resolveBinding]
  split
  · exact guards_createBinding mailbox fingerprint
  · rename_i existing hfind
    obtain ⟨hmem, hnone⟩ := findLiveByMailbox_mem hfind
    have hlive := hs.live hmem hnone
    have hresolved : s.Guards (if existing.fingerprint ≠ fingerprint then
        (s.invalidateBinding existing .stale
          "The mailbox password or identity changed.").reanchor existing.id fingerprint
      else if existing.state = .mailboxMissing then
        s.setBindingState existing.id .active none
      else s) := by
      split
      · exact (guards_invalidateBinding _ _ hlive).trans
          (guards_reanchor _ (invalidateBinding_bindingState _ _ (by decide)))
      · split
        · exact guards_setBindingState none rfl hlive
        · exact Guards.refl s
    dsimp only
    split
    · exact hresolved
    · exact hresolved

theorem guards_beginCreate (hs : s.Curbed) (request : CreateRequest) :
    s.Guards (s.beginCreate request).2 := by
  have hresolve := guards_resolveBinding hs request.mailbox request.mailboxFingerprint
  rw [beginCreate]
  split
  · exact Guards.refl s
  · split
    · exact Guards.refl s
    · split
      · rename_i heq
        rw [heq] at hresolve
        exact hresolve
      · rename_i heq
        rw [heq] at hresolve
        split
        · exact hresolve
        · exact hresolve

theorem guards_beginUpdateCredentials (hs : s.Curbed) (id : Id) (fingerprint : String) :
    s.Guards (s.beginUpdateCredentials id fingerprint).2 := by
  rw [beginUpdateCredentials]
  split
  · exact Guards.refl s
  · rename_i connection _
    have hresolve := guards_resolveBinding hs connection.mailbox fingerprint
    split
    · rename_i heq
      rw [heq] at hresolve
      exact hresolve
    · rename_i heq
      rw [heq] at hresolve
      split
      · exact hresolve
      · exact hresolve

/-- What the panel's server reports about a mailbox bars its binding or leaves it alone. -/
theorem guards_mailboxEvent (hs : s.Curbed) (mailbox : String) (event : MailboxEvent) :
    s.Guards (s.mailboxEvent mailbox event) := by
  cases hfind : s.findLiveByMailbox mailbox with
  | none =>
      rw [mailboxEvent, hfind]
      exact Guards.refl s
  | some binding =>
      obtain ⟨hmem, hnone⟩ := findLiveByMailbox_mem hfind
      cases event with
      | passwordChanged =>
          rw [mailboxEvent, hfind]
          exact guards_invalidateBinding _ _ (hs.live hmem hnone)
      | deleted => exact (barring_deleted hs hfind).guards (Or.inl rfl)

/-- Reconciliation revokes no binding, and guards those that are not revoked. -/
theorem guards_reconcileBinding (entries : List (String × String)) {binding : BindingRow}
    (hlive : s.bindingState binding.id ≠ some .revoked) :
    s.Guards (s.reconcileBinding entries binding) ∧
      ∀ id, s.bindingState id ≠ some .revoked →
        (s.reconcileBinding entries binding).bindingState id ≠ some .revoked := by
  have hset : ∀ state : BindingState, state ≠ .revoked → ∀ reason id,
      s.bindingState id ≠ some .revoked →
        (s.setBindingState binding.id state reason).bindingState id ≠ some .revoked := by
    intro state hstate reason id hid hrevoked
    rw [bindingState_setBindingState] at hrevoked
    split at hrevoked
    · obtain ⟨_, -, heq⟩ := Option.map_eq_some_iff.mp hrevoked
      exact hstate heq
    · exact hid hrevoked
  have hrefl : s.Guards s ∧ ∀ id, s.bindingState id ≠ some .revoked →
      s.bindingState id ≠ some .revoked := ⟨Guards.refl s, fun _ h => h⟩
  rw [reconcileBinding]
  split
  · split
    · exact ⟨guards_setBindingState _ rfl hlive, hset _ (by decide) _⟩
    · exact hrefl
  · split
    · split
      · refine ⟨guards_invalidateBinding _ _ hlive, ?_⟩
        intro id hid hrevoked
        rw [(barring_invalidateBinding binding _ _).bindingState] at hrevoked
        split at hrevoked
        · obtain ⟨_, -, heq⟩ := Option.map_eq_some_iff.mp hrevoked
          cases heq
        · exact hid hrevoked
      · exact hrefl
    · split
      · exact ⟨guards_setBindingState _ rfl hlive, hset _ (by decide) _⟩
      · exact hrefl

theorem guards_foldl_reconcile (entries : List (String × String)) (rows : List BindingRow)
    (s : Server) (hlive : ∀ row ∈ rows, s.bindingState row.id ≠ some .revoked) :
    s.Guards (rows.foldl (fun s binding => s.reconcileBinding entries binding) s) := by
  induction rows generalizing s with
  | nil => exact Guards.refl s
  | cons row rows ih =>
      obtain ⟨hguards, hkept⟩ := guards_reconcileBinding entries (hlive row List.mem_cons_self)
      refine hguards.trans (ih _ ?_)
      intro other hother
      exact hkept other.id (hlive other (List.mem_cons_of_mem row hother))

/-- The comparison with the list of mailboxes goes over live bindings only, and so revives none
that is revoked. -/
theorem guards_reconcile (hs : s.Curbed) (entries : List (String × String)) :
    s.Guards (s.reconcile entries) := by
  apply guards_foldl_reconcile
  intro row hrow
  obtain ⟨hmem, hnone⟩ := List.mem_filter.mp hrow
  exact hs.live hmem (by simpa using hnone)

/- What comes back from the mail server -/

/-- The mail server has accepted the password, and there is a key to seal it with. -/
def Stores (s : Server) (result : VerifyResult) : Prop :=
  s.vaultKeyId ≠ none ∧ result.imapOk = true ∧ result.smtpOk = true

instance (s : Server) (result : VerifyResult) : Decidable (s.Stores result) :=
  inferInstanceAs (Decidable (_ ∧ _))

/-- When the check is passed and the vault has a key, the password is stored and the binding
counts as verified. -/
theorem finishProvision_stores {result : VerifyResult} (hstores : s.Stores result)
    (bindingId : Id) (password : String) :
    ∃ keyId, s.finishProvision bindingId password result =
      (.ok (), (s.putCredential bindingId keyId password).markVerified bindingId) := by
  obtain ⟨hvault, himap, hsmtp⟩ := hstores
  obtain ⟨keyId, hkeyId⟩ := Option.ne_none_iff_exists'.mp hvault
  exact ⟨keyId, by simp [finishProvision, himap, hsmtp, hkeyId]⟩

/-- Otherwise nothing changes at all. -/
theorem finishProvision_refused {result : VerifyResult} (hrefused : ¬ s.Stores result)
    (bindingId : Id) (password : String) :
    ∃ error, s.finishProvision bindingId password result = (.error error, s) := by
  rw [finishProvision]
  split
  · split
    · exact ⟨_, rfl⟩
    · exact ⟨_, rfl⟩
  · rename_i hverified
    split
    · exact ⟨_, rfl⟩
    · rename_i keyId hkeyId
      rw [not_or, Bool.not_eq_true, Bool.not_eq_true, Bool.not_eq_false, Bool.not_eq_false]
        at hverified
      exact absurd ⟨by simp [hkeyId], hverified.1, hverified.2⟩ hrefused

/-- The stored credential is there afterwards, and the binding as it was. -/
theorem finishProvision_lookups {result : VerifyResult} (hstores : s.Stores result)
    (bindingId : Id) (password : String) :
    (s.finishProvision bindingId password result).2.getCredential bindingId ≠ none ∧
      ∀ id, (s.finishProvision bindingId password result).2.bindingState id =
        s.bindingState id := by
  obtain ⟨keyId, hprovision⟩ := finishProvision_stores hstores bindingId password
  rw [hprovision]
  refine ⟨(getCredential_put bindingId keyId password).2, ?_⟩
  intro id
  rw [bindingState_markVerified, bindingState_putCredential]

/-- The end of a provisioning keeps the guarantee when the binding is not barred at that
moment. -/
theorem guards_finishProvision {result : VerifyResult} (password : String)
    (hfree : s.Stores result → ∀ state ∈ s.bindingState id, state.barred = false) :
    s.Guards (s.finishProvision id password result).2 := by
  by_cases hstores : s.Stores result
  · obtain ⟨keyId, hprovision⟩ := finishProvision_stores hstores id password
    rw [hprovision]
    exact (guards_putCredential keyId password (hfree hstores)).trans (guards_markVerified id)
  · obtain ⟨error, hprovision⟩ := finishProvision_refused hstores id password
    rw [hprovision]
    exact Guards.refl s

/-- What is stored at the end of an update, with the binding's state judged as it was when the
update began. -/
theorem finishUpdateCredentials_stores {result : VerifyResult} (hstores : s.Stores result)
    (binding : BindingRow) (password : String) :
    ∃ keyId, (s.finishUpdateCredentials binding password result).2 =
      if binding.state ≠ .active then
        ((s.putCredential binding.id keyId password).markVerified binding.id).setBindingState
          binding.id .active none
      else (s.putCredential binding.id keyId password).markVerified binding.id := by
  obtain ⟨keyId, hprovision⟩ := finishProvision_stores hstores binding.id password
  refine ⟨keyId, ?_⟩
  rw [finishUpdateCredentials, hprovision]
  dsimp only
  split
  · rfl
  · rfl

/-- The end of an update keeps the guarantee unless the binding was revoked, or barred after
being active, during the wait. -/
theorem guards_finishUpdateCredentials {binding : BindingRow} {result : VerifyResult}
    (password : String)
    (hfree : s.Stores result → ∀ state ∈ s.bindingState binding.id,
      state ≠ .revoked ∧ (binding.state = .active → state.barred = false)) :
    s.Guards (s.finishUpdateCredentials binding password result).2 := by
  by_cases hstores : s.Stores result
  · obtain ⟨keyId, hupdate⟩ := finishUpdateCredentials_stores hstores binding password
    rw [hupdate]
    by_cases hactive : binding.state = .active
    · rw [if_neg (not_not_intro hactive)]
      apply Guards.trans _ (guards_markVerified binding.id)
      apply guards_putCredential
      exact fun state hstate => (hfree hstores state hstate).2 hactive
    · rw [if_pos hactive]
      apply guards_reactivate
      exact fun hrevoked => (hfree hstores .revoked hrevoked).1 rfl
  · obtain ⟨error, hprovision⟩ := finishProvision_refused hstores binding.id password
    rw [finishUpdateCredentials, hprovision]
    exact Guards.refl s

/-- A late rejection keeps the guarantee unless the binding was revoked during the wait. -/
theorem guards_finishTest {binding : BindingRow} {result : VerifyResult}
    (hlive : ¬ (result.imapOk = true ∧ result.smtpOk = true) → result.authFailed = true →
      s.bindingState binding.id ≠ some .revoked) :
    s.Guards (s.finishTest binding result) := by
  rw [finishTest]
  split
  · exact guards_markVerified _
  · rename_i hfailed
    split
    · rename_i hauth
      exact guards_invalidateBinding _ _ (hlive hfailed hauth)
    · exact guards_recordError _ _

end Server

/-- When the mail server answers, the binding that the task read before must still be one
that its answer may be applied to. -/
def Task.UpToDate (s : Server) (result : VerifyResult) : Task → Prop
  | .provisioning _ _ binding _ =>
      s.Stores result → ∀ state ∈ s.bindingState binding.id, state.barred = false
  | .updatingCredentials binding _ =>
      s.Stores result → ∀ state ∈ s.bindingState binding.id,
        state ≠ .revoked ∧ (binding.state = .active → state.barred = false)
  | .testing binding =>
      ¬ (result.imapOk = true ∧ result.smtpOk = true) → result.authFailed = true →
        s.bindingState binding.id ≠ some .revoked
  | _ => True

namespace System

variable {env : Env} {system : System} {label : Label} {server : Server}

def UpToDate (system : System) : Label → Prop
  | .request (.credentialRejected bindingId) =>
      system.server.bindingState bindingId ≠ some .revoked
  | .resume index (.verified result) =>
      ∀ task ∈ system.tasks[index]?, task.UpToDate system.server result
  | _ => True

/-- Every step keeps the guarantee when its answer is up to date, that is, when it does not
speak about a binding that has been given up since. -/
theorem Tended.guards (hs : system.server.Curbed) (h : Tended env system label server)
    (hupToDate : UpToDate system label) : system.server.Guards server := by
  cases h with
  | quiet hquiet => exact hquiet.guards
  | @granted client _ code codeVerifier scopes _ =>
      have hredeemed : system.server.Quiet (system.server.redeemed code) :=
        Server.quiet_redeemed code
      exact hredeemed.guards.trans (Server.guards_grantCode _ client code scopes codeVerifier)
  | @refreshed _ _ _ _ _ token grant scopes _ _ _ =>
      have hmarked : system.server.Quiet (system.server.markRefreshTokenUsed token.id).2 :=
        Server.quiet_markRefreshTokenUsed token.id
      have htouched := hmarked.trans (Server.quiet_touchGrant grant.id)
      exact htouched.guards.trans (Server.guards_mintPair _ _ _ _ _ _)
  | rejected hlabel hfind =>
      rw [hlabel] at hupToDate
      apply Server.guards_invalidateBinding
      rw [key_of_lookup hfind]
      exact hupToDate
  | creating _ hquiet => exact (Server.guards_beginCreate hs _).trans hquiet.guards
  | updating _ => exact Server.guards_beginUpdateCredentials hs _ _
  | mailbox _ => exact Server.guards_mailboxEvent hs _ _
  | reconciled _ => exact Server.guards_reconcile hs _
  | provisioned hlabel htask hquiet =>
      rw [hlabel] at hupToDate
      exact (Server.guards_finishProvision _ (hupToDate _ htask)).trans hquiet.guards
  | replaced hlabel htask =>
      rw [hlabel] at hupToDate
      exact Server.guards_finishUpdateCredentials _ (hupToDate _ htask)
  | tested hlabel htask =>
      rw [hlabel] at hupToDate
      exact Server.guards_finishTest (hupToDate _ htask)

/- A step that is not up to date breaks one rule or the other -/

theorem not_revoked_of_barring {s t : Server} {id : Id} {state : BindingState}
    (hbarring : s.Barring t id state) (hstate : state ≠ .revoked)
    (hrevoked : ∀ id, s.bindingState id = some .revoked → t.bindingState id = some .revoked) :
    s.bindingState id ≠ some .revoked := by
  intro hid
  have hnext := hrevoked id hid
  rw [hbarring.bindingState, if_pos rfl, hid] at hnext
  exact hstate (Option.some.inj hnext)

/-- Conversely, a resumed task whose step keeps the invariants was up to date. -/
theorem Task.upToDate_of_kept {index : Nat} {result : VerifyResult} {task : Task}
    (htask : system.tasks[index]? = some task)
    (htrusted : (system.step env (.resume index (.verified result))).server.Trusted)
    (hrevoked : ∀ id, system.server.bindingState id = some .revoked →
      (system.step env (.resume index (.verified result))).server.bindingState id =
        some .revoked) : task.UpToDate system.server result := by
  cases task with
  | provisioning connectionExpiryDays request binding password =>
      intro hstores state hstate
      by_contra hbarred
      obtain ⟨hcredential, hsame⟩ :=
        Server.finishProvision_lookups hstores binding.id password
      obtain ⟨keyId, hprovision⟩ :=
        Server.finishProvision_stores hstores binding.id password
      have hquiet : (system.server.finishProvision binding.id password result).2.Quiet
          (system.step env (.resume index (.verified result))).server := by
        simp only [System.step, htask, Server.proceed, hprovision]
        exact Server.quiet_createConnectionAndIssue _ _ _ _
      apply hcredential
      rw [← Server.getCredential_congr hquiet.credentials]
      apply htrusted binding.id state
      · rw [Server.bindingState_congr hquiet.bindings, hsame]
        exact hstate
      · simpa using hbarred
  | updatingCredentials binding password =>
      intro hstores state hstate
      have hnext : (system.step env (.resume index (.verified result))).server =
          (system.server.finishUpdateCredentials binding password result).2 := by
        simp only [System.step, htask, Server.proceed]
      obtain ⟨keyId, hupdate⟩ :=
        Server.finishUpdateCredentials_stores hstores binding password
      rw [hnext, hupdate] at htrusted hrevoked
      have hverified : ∀ id, ((system.server.putCredential binding.id keyId
          password).markVerified binding.id).bindingState id =
            system.server.bindingState id := by
        intro id
        rw [Server.bindingState_markVerified, Server.bindingState_putCredential]
      have hactive : binding.state = .active → state.barred = false := by
        intro hactive
        by_contra hbarred
        rw [if_neg (not_not_intro hactive)] at htrusted
        exact (Server.getCredential_put binding.id keyId password).2
          (htrusted binding.id state ((hverified _).trans hstate) (by simpa using hbarred))
      refine ⟨?_, hactive⟩
      rintro rfl
      by_cases hsnapshot : binding.state = .active
      · exact absurd (hactive hsnapshot) (by decide)
      · have hid := hrevoked binding.id hstate
        rw [if_pos hsnapshot, Server.bindingState_setBindingState, if_pos rfl, hverified,
          hstate] at hid
        cases hid
  | testing binding =>
      intro hfailed hauth
      have hnext : (system.step env (.resume index (.verified result))).server =
          system.server.markCredentialRejected binding := by
        simp only [System.step, htask, Server.proceed, Server.finishTest]
        rw [if_neg hfailed, if_pos hauth]
      rw [hnext] at hrevoked
      exact not_revoked_of_barring (Server.barring_invalidateBinding binding _ _) (by decide)
        hrevoked
  | _ => exact trivial

/-- Conversely, a step that keeps the invariants was up to date, so that the condition is
exact. -/
theorem upToDate_of_kept (htrusted : (system.step env label).server.Trusted)
    (hrevoked : ∀ id, system.server.bindingState id = some .revoked →
      (system.step env label).server.bindingState id = some .revoked) :
    UpToDate system label := by
  unfold UpToDate
  split
  · rename_i bindingId
    intro hid
    cases hfind : system.server.findBinding bindingId with
    | none =>
        rw [Server.bindingState, hfind] at hid
        cases hid
    | some binding =>
        have hnext : (system.step env (.request (.credentialRejected bindingId))).server =
            system.server.markCredentialRejected binding := by
          simp only [System.step, Server.receive, hfind]
        rw [hnext] at hrevoked
        have hbinding : binding.id = bindingId := key_of_lookup hfind
        exact not_revoked_of_barring (Server.barring_invalidateBinding binding _ _) (by decide)
          hrevoked (hbinding ▸ hid)
  · intro task htask
    exact Task.upToDate_of_kept htask htrusted hrevoked
  · exact trivial

/-- At every point of the run no barred binding has a credential, and what is revoked by
then is revoked at every later point. -/
def BindingsKept (env : Env) (start : System) (labels : List Label) : Prop :=
  ∀ before between after, labels = before ++ between ++ after →
    (run env start before).server.Trusted ∧
      ∀ id, (run env start before).server.bindingState id = some .revoked →
        (run env start (before ++ between)).server.bindingState id = some .revoked

/-- The steps that meet the condition keep both halves of the invariant, and a step that misses
it breaks one of them at once. The condition is that an answer of the mail server does not
arrive for a binding that was given up while the check was under way. -/
theorem bindingsKept_iff (env : Env) (settings : McpSettings) (vaultKeyId : Option String)
    (now : Time) (labels : List Label) :
    BindingsKept env (System.initial settings vaultKeyId now) labels ↔
      StepRun.Meets (System.step env) UpToDate (System.initial settings vaultKeyId now)
        labels := by
  constructor
  · intro hkept
    rw [StepRun.meets_iff]
    intro before label after heq
    have hnext := hkept (before ++ [label]) [] after (by simp [heq])
    have hstep := hkept before [label] after (by simp [heq])
    have hrun : run env (System.initial settings vaultKeyId now) (before ++ [label]) =
        (run env (System.initial settings vaultKeyId now) before).step env label := by
      rw [run, run, StepRun.run_append]
      rfl
    rw [hrun] at hnext hstep
    exact upToDate_of_kept hnext.1 hstep.2
  · intro hmeets before between after heq
    rw [heq, StepRun.meets_append, StepRun.meets_append] at hmeets
    obtain ⟨⟨hbefore, hbetween⟩, -⟩ := hmeets
    have hguards : ∀ system label, Reachable env system → UpToDate system label →
        system.server.Guards (system.step env label).server := by
      intro system label hreachable hupToDate
      exact (step_tended env system label).guards hreachable.curbed.2 hupToDate
    have hinitial : (System.initial settings vaultKeyId now).server.Trusted := by
      intro id state hid
      cases hid
    have hfirst := StepRun.invariant_of_meets (System.step env)
      (fun system => Reachable env system ∧ system.server.Trusted)
      (fun system label h hupToDate =>
        ⟨h.1.step label, (hguards system label h.1 hupToDate).trusted h.2⟩)
      ⟨⟨settings, vaultKeyId, now, [], rfl⟩, hinitial⟩ hbefore
    refine ⟨hfirst.2, ?_⟩
    intro id hrevoked
    have hlater := StepRun.invariant_of_meets (System.step env)
      (fun system => Reachable env system ∧ system.server.bindingState id = some .revoked)
      (fun system label h hupToDate =>
        ⟨h.1.step label, (hguards system label h.1 hupToDate).revoked id h.2⟩)
      ⟨hfirst.1, hrevoked⟩ hbetween
    rw [run, StepRun.run_append]
    exact hlater.2

end System

namespace OneConnection

/-- The mailbox is deleted while a check of its password is under way. -/
def deleted : List Label :=
  prepared ++ [.request (.mailboxEvent "owner@example.com" .deleted)]

/-- A tool was at the mail server meanwhile, which now rejects the password. -/
def rejection : List Label := [.request (.credentialRejected 0)]

/-- While the mailbox exists, the rejection only makes its binding invalid. -/
example : (System.run env start (prepared ++ rejection)).server.bindingState 0 = some .invalid ∧
    (System.run env start (prepared ++ rejection ++ [.request (.mailboxEvent "owner@example.com"
      .deleted)])).server.bindingState 0 = some .revoked := by
  decide

/-- A run in which the mail server's rejection arrives after the mailbox's deletion, and the
revoked binding becomes invalid, which is not revoked. -/
theorem rejection_revives_binding :
    ¬ ∀ env settings vaultKeyId now labels,
      System.BindingsKept env (System.initial settings vaultKeyId now) labels := by
  intro hclaim
  have hdeleted : (System.run env start deleted).server.bindingState 0 = some .revoked := by
    decide
  have hrejected : (System.run env start (deleted ++ rejection)).server.bindingState 0 =
      some .invalid := by
    decide
  have hkept : System.BindingsKept env start (deleted ++ rejection) :=
    hclaim env settings (some "k1") 1000 (deleted ++ rejection)
  have hlater := (hkept deleted rejection [] (List.append_nil _).symm).2 0 hdeleted
  rw [hrejected] at hlater
  cases hlater

end OneConnection

end Mcp

end MailPanel
