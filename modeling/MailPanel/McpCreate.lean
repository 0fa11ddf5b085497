import MailPanel.McpCredential

/-
The creation of a connection with a mailbox password, from its request to its answer.
-/

namespace MailPanel

namespace Mcp

open RowTable

namespace Server

variable {s t : Server}

/-- The server after a wait. -/
def waited (s : Server) (milliseconds : Nat) : Server :=
  { s with now := s.now + milliseconds }

/-- What `create` does once the mailbox has its credential, with the time that the hash of
the setup password takes. -/
def finishCreate (s : Server) (env : Env) (connectionExpiryDays : Option Nat)
    (request : CreateRequest) (binding : BindingRow) (hashing : Nat) :
    Except ControlError (ConnectionRow × McpOneTimeCredential) × Server :=
  match s.insertConnection connectionExpiryDays request binding with
  | (.error error, s) => (.error error, s)
  | (.ok connection, s) =>
      let (pending, s) := s.beginIssue env.rank connection true
      match (s.waited hashing).finishIssue pending with
      | none => (.error ⟨.internal, "FOREIGN KEY constraint failed"⟩, s.waited hashing)
      | some (credential, s) => (.ok (connection, credential), s)

/-- `create`, alone on the server: what the mail server answers if it is asked, and how long
it and the hash take. -/
def create (s : Server) (env : Env) (request : CreateRequest) (result : VerifyResult)
    (verifying hashing : Nat) :
    Except ControlError (ConnectionRow × McpOneTimeCredential) × Server :=
  match s.beginCreate request with
  | (.error error, s) => (.error error, s)
  | (.ok binding, resolved) =>
      match request.mailboxPassword with
      | none =>
          resolved.finishCreate env s.settings.connectionExpiryDays request binding hashing
      | some password =>
          if resolved.vaultKeyId = none then (.error vaultMissing, resolved)
          else
            match (resolved.waited verifying).finishProvision binding.id password result with
            | (.error error, s) => (.error error, s)
            | (.ok (), provisioned) =>
                provisioned.finishCreate env s.settings.connectionExpiryDays request binding
                  hashing

/-- Binding ids are drawn before they are used, and never twice; a live binding is not
revoked. -/
structure Keyed (s : Server) : Prop where
  binding_lt : ∀ row ∈ s.bindings, row.id < s.nextId
  binding_nodup : (s.bindings.map BindingRow.id).Nodup
  live : ∀ row ∈ s.bindings, row.revokedAt = none → row.state ≠ .revoked

theorem Curbed.keyed (hs : s.Curbed) : s.Keyed where
  binding_lt := hs.binding_lt
  binding_nodup := hs.binding_nodup
  live := fun row hrow hlive hrevoked => hs.revokedAt row hrow hrevoked hlive

/-- The id of the binding that a request for the mailbox works with. -/
def bindingIdOf (s : Server) (mailbox : String) : Id :=
  match s.findLiveByMailbox mailbox with
  | none => s.nextId
  | some existing => existing.id

/-- The mailbox has its binding for this very identity, and the binding has gone stale or
its credential was rejected. -/
def Stuck (s : Server) (mailbox fingerprint : String) : Prop :=
  ∃ existing, s.findLiveByMailbox mailbox = some existing ∧
    existing.fingerprint = fingerprint ∧
    (existing.state = .stale ∨ existing.state = .invalid)

/- What resolving the binding comes to -/

/-- The columns that resolving a binding leaves alone. -/
def surroundings (s : Server) := (s.settings, s.vaultKeyId, s.now, s.connections)

theorem surroundings_foldl {Item : Type} {next : Server → Item → Server}
    (hnext : ∀ (s : Server) item, (next s item).surroundings = s.surroundings)
    (items : List Item) (s : Server) : (items.foldl next s).surroundings = s.surroundings := by
  induction items generalizing s with
  | nil => rfl
  | cons item items ih =>
      rw [List.foldl_cons, ih]
      exact hnext s item

theorem surroundings_revokeAllGrants (connectionId : Id) (reason : String) :
    (s.revokeAllGrantsForConnection connectionId reason).surroundings = s.surroundings := by
  apply surroundings_foldl
  intro s grant
  split
  · rfl
  · rfl

theorem surroundings_invalidateBinding (binding : BindingRow) (state : BindingState)
    (reason : String) :
    (s.invalidateBinding binding state reason).surroundings = s.surroundings := by
  rw [invalidateBinding, surroundings_foldl]
  · rfl
  · exact fun s connection => surroundings_revokeAllGrants connection.id reason

/-- The existing binding is re-anchored, found again, or kept as it is. -/
def reanchored (s : Server) (existing : BindingRow) (fingerprint : String) : Server :=
  if existing.fingerprint ≠ fingerprint then
    (s.invalidateBinding existing .stale
      "The mailbox password or identity changed.").reanchor existing.id fingerprint
  else if existing.state = .mailboxMissing then
    s.setBindingState existing.id .active none
  else s

theorem surroundings_reanchored (existing : BindingRow) (fingerprint : String) :
    (s.reanchored existing fingerprint).surroundings = s.surroundings := by
  rw [reanchored]
  split
  · exact surroundings_invalidateBinding existing _ _
  · split
    · rfl
    · rfl

theorem surroundings_resolveBinding (s : Server) (mailbox fingerprint : String) :
    (s.resolveBinding mailbox fingerprint).2.surroundings = s.surroundings := by
  rw [resolveBinding]
  split
  · rfl
  · rename_i existing _
    have hresolved := @surroundings_reanchored s existing fingerprint
    rw [reanchored] at hresolved
    dsimp only
    split
    · exact hresolved
    · exact hresolved

theorem surroundings_beginCreate (s : Server) (request : CreateRequest) :
    (s.beginCreate request).2.surroundings = s.surroundings := by
  have hresolve := surroundings_resolveBinding s request.mailbox request.mailboxFingerprint
  rw [beginCreate]
  split
  · rfl
  · split
    · rfl
    · split
      · rename_i heq
        rw [heq] at hresolve
        exact hresolve
      · rename_i heq
        rw [heq] at hresolve
        split
        · exact hresolve
        · exact hresolve

theorem findBinding_of_live (hs : s.Keyed) {mailbox : String} {existing : BindingRow}
    (hfind : s.findLiveByMailbox mailbox = some existing) :
    s.findBinding existing.id = some existing ∧ existing.revokedAt = none := by
  obtain ⟨hmem, hlive⟩ := findLiveByMailbox_mem hfind
  exact ⟨lookup_of_mem hs.binding_nodup hmem, hlive⟩

/-- A binding of another identity is made active. -/
theorem bindingState_changed (hs : s.Keyed) {mailbox fingerprint : String}
    {existing : BindingRow} (hfind : s.findLiveByMailbox mailbox = some existing)
    (hchanged : existing.fingerprint ≠ fingerprint) :
    (s.reanchored existing fingerprint).bindingState existing.id = some .active := by
  obtain ⟨hbinding, hlive⟩ := findBinding_of_live hs hfind
  obtain ⟨u, reason, hsame, hbindings⟩ :=
    (@barring_invalidateBinding s existing .stale
      "The mailbox password or identity changed.").bindings
  have hstale : (s.invalidateBinding existing .stale
      "The mailbox password or identity changed.").findBinding existing.id =
        some { existing with state := .stale, stateReason := reason, lastError := none } := by
    rw [setBindingState, hsame] at hbindings
    rw [findBinding_update hbindings fun _ => rfl, hbinding]
    simp [hlive]
  rw [reanchored, if_pos hchanged, bindingState, reanchor,
    findBinding_update rfl (by intro row; rfl), hstale]
  simp [hlive]

theorem bindingState_reanchored (hs : s.Keyed) {mailbox fingerprint : String}
    {existing : BindingRow} (hfind : s.findLiveByMailbox mailbox = some existing) :
    ∃ state, (s.reanchored existing fingerprint).bindingState existing.id = some state ∧
      (state = .active ↔ ¬s.Stuck mailbox fingerprint) := by
  obtain ⟨hbinding, hlive⟩ := findBinding_of_live hs hfind
  have hstate : s.bindingState existing.id = some existing.state := by
    rw [bindingState, hbinding]
    rfl
  have hstuck : s.Stuck mailbox fingerprint ↔ existing.fingerprint = fingerprint ∧
      (existing.state = .stale ∨ existing.state = .invalid) := by
    rw [Stuck, hfind]
    constructor
    · rintro ⟨other, heq, hrest⟩
      obtain rfl := Option.some.inj heq
      exact hrest
    · exact fun hrest => ⟨existing, rfl, hrest⟩
  rw [hstuck]
  by_cases hchanged : existing.fingerprint ≠ fingerprint
  · exact ⟨.active, bindingState_changed hs hfind hchanged,
      iff_of_true rfl fun h => hchanged h.1⟩
  · have hsame : existing.fingerprint = fingerprint := not_not.mp hchanged
    rw [reanchored, if_neg hchanged]
    by_cases hmissing : existing.state = .mailboxMissing
    · rw [if_pos hmissing, bindingState_setBindingState, if_pos rfl, hstate, hmissing]
      exact ⟨.active, rfl, iff_of_true rfl (by simp)⟩
    · rw [if_neg hmissing, hstate]
      refine ⟨existing.state, rfl, ?_⟩
      have hunrevoked := hs.live existing (findLiveByMailbox_mem hfind).1 hlive
      cases hcase : existing.state with
      | active => simp
      | stale => simp [hsame]
      | invalid => simp [hsame]
      | mailboxMissing => exact absurd hcase hmissing
      | revoked => exact absurd hcase hunrevoked

/-- The binding that a request works with is active unless the mailbox is stuck. -/
theorem resolveBinding_spec (hs : s.Keyed) (mailbox fingerprint : String) :
    ∃ binding resolved, s.resolveBinding mailbox fingerprint = (.ok binding, resolved) ∧
      binding.id = s.bindingIdOf mailbox ∧ resolved.surroundings = s.surroundings ∧
      ∃ state, resolved.bindingState binding.id = some state ∧
        (state = .active ↔ ¬s.Stuck mailbox fingerprint) := by
  cases hfind : s.findLiveByMailbox mailbox with
  | none =>
      have hnew : ∀ row ∈ s.bindings, row.id ≠ s.nextId := fun row hrow =>
        Nat.ne_of_lt (hs.binding_lt row hrow)
      have hstuck : ¬s.Stuck mailbox fingerprint := by
        rintro ⟨existing, heq, -⟩
        rw [hfind] at heq
        cases heq
      rw [resolveBinding, bindingIdOf, hfind]
      refine ⟨_, _, rfl, rfl, rfl, .active, ?_, iff_of_true rfl hstuck⟩
      have hnone : lookup BindingRow.id s.nextId s.bindings = none := by
        rw [lookup, List.find?_eq_none]
        intro row hrow
        simpa using hnew row hrow
      dsimp only
      rw [bindingState, findBinding, lookup_append, hnone, if_pos rfl]
      rfl
  | some existing =>
      obtain ⟨state, hstate, hactive⟩ :=
        @bindingState_reanchored s hs mailbox fingerprint existing hfind
      obtain ⟨refreshed, hrefreshed, rfl⟩ := Option.map_eq_some_iff.mp hstate
      have hid : refreshed.id = existing.id := key_of_lookup hrefreshed
      have hresolve : s.resolveBinding mailbox fingerprint =
          (.ok refreshed, s.reanchored existing fingerprint) := by
        rw [resolveBinding, hfind]
        change (match (s.reanchored existing fingerprint).findBinding existing.id with
          | none => _
          | some refreshed => _) = _
        rw [hrefreshed]
        rfl
      rw [bindingIdOf, hfind]
      refine ⟨refreshed, _, hresolve, hid, surroundings_reanchored existing fingerprint,
        refreshed.state, ?_, hactive⟩
      rw [hid]
      exact hstate

/- What provisioning comes to -/

theorem getCredential_put_self (bindingId : Id) (keyId password : String) :
    ∃ version, (s.putCredential bindingId keyId password).getCredential bindingId =
      some ⟨bindingId, keyId, password, version⟩ := by
  cases hfind : s.getCredential bindingId with
  | none =>
      rw [putCredential, hfind, getCredential, lookup_append, if_pos rfl]
      rw [getCredential] at hfind
      rw [hfind]
      exact ⟨1, rfl⟩
  | some existing =>
      have hid : existing.bindingId = bindingId := key_of_lookup hfind
      rw [putCredential, hfind, getCredential, lookup_updateWhere]
      · rw [getCredential] at hfind
        rw [hfind]
        exact ⟨existing.version + 1, by simp [hid]⟩
      · intro row hrow
        exact (of_decide_eq_true hrow).symm

/-- A stored password is healthy exactly in an active binding. Storing it does not activate one,
and a binding that waits for repair stays as it is. -/
theorem health_provisioned {result : VerifyResult} (hstores : s.Stores result)
    (bindingId : Id) (password : String) :
    ∃ provisioned, s.finishProvision bindingId password result = (.ok (), provisioned) ∧
      provisioned.surroundings = s.surroundings ∧
      (∀ id, provisioned.bindingState id = s.bindingState id) ∧
      ∀ binding : BindingRow, binding.id = bindingId →
        (provisioned.credentialHealth binding = .healthy ↔ binding.state = .active) := by
  obtain ⟨hvault, himap, hsmtp⟩ := hstores
  obtain ⟨keyId, hkeyId⟩ := Option.ne_none_iff_exists'.mp hvault
  have hprovision : s.finishProvision bindingId password result =
      (.ok (), (s.putCredential bindingId keyId password).markVerified bindingId) := by
    simp [finishProvision, himap, hsmtp, hkeyId]
  have hput : (s.putCredential bindingId keyId password).surroundings = s.surroundings := by
    rw [putCredential]
    split
    · rfl
    · rfl
  refine ⟨_, hprovision, hput, ?_, ?_⟩
  · intro id
    rw [bindingState_markVerified, bindingState_putCredential]
  · intro binding hid
    obtain ⟨version, hcredential⟩ := @getCredential_put_self s bindingId keyId password
    have hkey : ((s.putCredential bindingId keyId password).markVerified bindingId).vaultKeyId =
        some keyId := by
      rw [← hkeyId]
      exact congrArg (fun columns => columns.2.1) hput
    have hstored : ((s.putCredential bindingId keyId password).markVerified
        bindingId).getCredential binding.id = some ⟨bindingId, keyId, password, version⟩ := by
      rw [hid]
      exact hcredential
    rw [credentialHealth]
    cases hstate : binding.state with
    | active => simp [hstored, hkey]
    | stale => simp
    | invalid => simp
    | mailboxMissing => simp
    | revoked => simp

theorem findBinding_of_bindingState {id : Id} {state : BindingState}
    (hstate : s.bindingState id = some state) :
    ∃ binding, s.findBinding id = some binding ∧ binding.id = id ∧ binding.state = state := by
  obtain ⟨binding, hbinding, hsame⟩ := Option.map_eq_some_iff.mp hstate
  exact ⟨binding, hbinding, key_of_lookup hbinding, hsame⟩

/- What is left then -/

/-- An active binding with a stored password of the current key. -/
def Healthy (s : Server) (bindingId : Id) : Prop :=
  ∃ binding, s.findBinding bindingId = some binding ∧ binding.state = .active ∧
    s.credentialHealth binding = .healthy

theorem Healthy.of_mailboxes {bindingId : Id} (hs : s.Healthy bindingId)
    (hmailboxes : t.mailboxes = s.mailboxes) (hvault : t.vaultKeyId = s.vaultKeyId) :
    t.Healthy bindingId := by
  obtain ⟨binding, hbinding, hactive, hhealth⟩ := hs
  simp only [mailboxes, Prod.mk.injEq] at hmailboxes
  refine ⟨binding, ?_, hactive, ?_⟩
  · rw [findBinding, hmailboxes.1]
    exact hbinding
  · rw [credentialHealth, getCredential_congr hmailboxes.2, hvault]
    exact hhealth

theorem insertConnection_healthy {binding : BindingRow}
    (hhealthy : s.credentialHealth ((s.findBinding binding.id).getD binding) = .healthy)
    (connectionExpiryDays : Option Nat) (request : CreateRequest) :
    ∃ connection, s.insertConnection connectionExpiryDays request binding =
        (.ok connection, { s.createConnection connection with nextId := s.nextId + 1 }) ∧
      connection.bindingId = binding.id ∧ connection.state = .enabled := by
  rw [insertConnection]
  dsimp only
  rw [if_neg (not_not_intro hhealthy)]
  exact ⟨_, rfl, rfl, rfl⟩

theorem insertConnection_unhealthy {binding : BindingRow}
    (hhealth : s.credentialHealth ((s.findBinding binding.id).getD binding) ≠ .healthy)
    (connectionExpiryDays : Option Nat) (request : CreateRequest) :
    ∃ error, s.insertConnection connectionExpiryDays request binding = (.error error, s) := by
  rw [insertConnection]
  dsimp only
  rw [if_pos hhealth]
  exact ⟨_, rfl⟩

theorem finishCreate_healthy (env : Env) {binding : BindingRow}
    (hhealthy : s.credentialHealth ((s.findBinding binding.id).getD binding) = .healthy)
    (connectionExpiryDays : Option Nat) (request : CreateRequest) (hashing : Nat) :
    ∃ connection credential created,
      s.finishCreate env connectionExpiryDays request binding hashing =
        (.ok (connection, credential), created) ∧
      connection.bindingId = binding.id ∧ created.mailboxes = s.mailboxes ∧
      created.vaultKeyId = s.vaultKeyId := by
  obtain ⟨connection, hinsert, hbinding, -⟩ :=
    insertConnection_healthy hhealthy connectionExpiryDays request
  have hfound : (lookup ConnectionRow.id connection.id (s.connections ++ [connection])).isSome := by
    rw [lookup_append, if_pos rfl]
    cases lookup ConnectionRow.id connection.id s.connections with
    | none => rfl
    | some _ => rfl
  obtain ⟨found, hfound⟩ := Option.isSome_iff_exists.mp hfound
  rw [finishCreate, hinsert]
  simp only [beginIssue, waited, finishIssue, issueEnrollment, findConnection,
    createConnection, hfound, Option.map_some]
  exact ⟨_, _, _, rfl, hbinding, rfl, rfl⟩

/-- What `create` computes in one go is what the service's own steps come to when nothing else
runs between them: the request, the mailbox's answer and the new hash, each resumed in turn. -/
theorem run_create {env : Env} {request : CreateRequest} {password : String}
    {result : VerifyResult} {verifying hashing : Nat}
    {answer : ConnectionRow × McpOneTimeCredential} {created : Server}
    (hpassword : request.mailboxPassword = some password)
    (hcreate : s.create env request result verifying hashing = (.ok answer, created)) :
    System.run env ⟨s, []⟩ [.request (.create request), .advance verifying,
      .resume 0 (.verified result), .advance hashing, .resume 0 .done] = ⟨created, []⟩ := by
  have hvault : (s.beginCreate request).2.vaultKeyId = s.vaultKeyId :=
    congrArg (fun columns => columns.2.1) (surroundings_beginCreate s request)
  cases hbegin : s.beginCreate request with
  | mk outcome resolved =>
      rw [hbegin] at hvault
      dsimp only at hvault
      rw [create, hbegin] at hcreate
      cases outcome with
      | error error => cases hcreate
      | ok binding =>
          dsimp only at hcreate
          rw [hpassword] at hcreate
          dsimp only at hcreate
          split at hcreate
          · cases hcreate
          · rename_i hkey
            split at hcreate
            · cases hcreate
            · rename_i provisioned hprovision
              rw [finishCreate] at hcreate
              split at hcreate
              · cases hcreate
              · rename_i connection inserted hinsert
                dsimp only at hcreate
                split at hcreate
                · cases hcreate
                · rename_i credential issued hissue
                  have hcreated : issued = created := congrArg Prod.snd hcreate
                  rw [hvault] at hkey
                  simp only [System.run, StepRun.run_cons, StepRun.run_nil, System.step,
                    receive, hbegin, hpassword, if_neg hkey, List.nil_append,
                    List.getElem?_cons_zero, proceed]
                  rw [waited] at hprovision hissue
                  simp only [hprovision, createConnectionAndIssue, hinsert, List.eraseIdx_zero,
                    List.tail_cons, List.nil_append, List.getElem?_cons_zero, finishHash,
                    noted]
                  rw [hissue, hcreated]

/-- `create` with a verified password leaves a usable connection unless the mailbox is stuck. It
is stuck when its live binding is in a state that the check of a password does not lift: the
sibling operation that replaces a credential makes the binding active again, and this one does
not. -/
theorem create_usable_iff (hs : s.Keyed) (env : Env) {request : CreateRequest}
    {password : String} {result : VerifyResult} (verifying hashing : Nat)
    (hpassword : request.mailboxPassword = some password)
    (henabled : s.settings.enabled = true) (hurl : s.settings.publicBaseUrl ≠ none)
    (hstores : s.Stores result)
    (hroom : s.countNonRevokedForBinding (s.bindingIdOf request.mailbox) <
      s.settings.maxConnectionsPerMailbox) :
    (∃ connection credential created,
        s.create env request result verifying hashing = (.ok (connection, credential), created) ∧
        created.Healthy connection.bindingId) ↔
      ¬s.Stuck request.mailbox request.mailboxFingerprint := by
  obtain ⟨binding, resolved, hresolve, hid, hsame, state, hstate, hactive⟩ :=
    resolveBinding_spec hs request.mailbox request.mailboxFingerprint
  simp only [surroundings, Prod.mk.injEq] at hsame
  obtain ⟨hsettings, hvault, hnow, hconnections⟩ := hsame
  have hcount : resolved.countNonRevokedForBinding binding.id <
      s.settings.maxConnectionsPerMailbox := by
    rw [countNonRevokedForBinding, hconnections, hid]
    exact hroom
  have hbegin : s.beginCreate request = (.ok binding, resolved) := by
    rw [beginCreate, if_neg (by simp [henabled]), if_neg hurl, hresolve]
    dsimp only
    rw [if_neg (Nat.not_le.mpr hcount)]
  have hresolvedStores : (resolved.waited verifying).Stores result := by
    refine ⟨?_, hstores.2⟩
    rw [waited, hvault]
    exact hstores.1
  obtain ⟨provisioned, hprovision, hkept, hstates, hhealth⟩ :=
    health_provisioned hresolvedStores binding.id password
  have hcreate : s.create env request result verifying hashing =
      provisioned.finishCreate env s.settings.connectionExpiryDays request binding hashing := by
    have hkey : resolved.vaultKeyId ≠ none := by
      rw [hvault]
      exact hstores.1
    rw [create, hbegin]
    dsimp only
    rw [hpassword]
    dsimp only
    rw [if_neg hkey, hprovision]
  obtain ⟨after, hafter, hafterId, hafterState⟩ :=
    findBinding_of_bindingState ((hstates binding.id).trans hstate)
  rw [hcreate, ← hactive, ← hafterState, ← hhealth after hafterId]
  constructor
  · rintro ⟨connection, credential, created, hcreated, -⟩
    by_contra hunhealthy
    have hfound : provisioned.credentialHealth
        ((provisioned.findBinding binding.id).getD binding) ≠ .healthy := by
      rw [hafter]
      exact hunhealthy
    obtain ⟨error, hinsert⟩ := insertConnection_unhealthy hfound
      s.settings.connectionExpiryDays request
    rw [finishCreate, hinsert] at hcreated
    cases hcreated
  · intro hhealthy
    have hfound : provisioned.credentialHealth
        ((provisioned.findBinding binding.id).getD binding) = .healthy := by
      rw [hafter]
      exact hhealthy
    obtain ⟨connection, credential, created, hcreated, hbinding, hmailboxes, hvaultKey⟩ :=
      finishCreate_healthy env hfound s.settings.connectionExpiryDays request hashing
    refine ⟨connection, credential, created, hcreated, ?_⟩
    have hprovisioned : provisioned.Healthy connection.bindingId := by
      rw [hbinding]
      exact ⟨after, hafter, (hhealth after hafterId).mp hhealthy, hhealthy⟩
    exact hprovisioned.of_mailboxes hmailboxes hvaultKey

end Server

namespace OneConnection

open Server

def verified : VerifyResult := ⟨true, true, false, ""⟩

def again (fingerprint : String) : CreateRequest :=
  ⟨"owner@example.com", fingerprint, "Second", [.mailRead], none, some "pw"⟩

/-- The mailbox password has been changed, and its binding is stale. -/
def staleServer : Server :=
  (System.run env start (prepared ++ [.request (.mailboxEvent "owner@example.com"
    .passwordChanged)])).server

/-- The mail server has rejected the stored password once. -/
def rejectedServer : Server :=
  (System.run env start (prepared ++ rejection)).server

theorem keyed_run (labels : List Label) : (System.run env start labels).server.Keyed :=
  (System.Reachable.curbed ⟨settings, some "k1", 1000, labels, rfl⟩).2.keyed

/-- The binding is stale because its account line has changed. Finding the mailbox under its
present line makes it active again, and the connection is usable. -/
theorem staleServer_usable :
    ∃ connection credential created,
      staleServer.create env (again "f2") verified 300 80 =
        (.ok (connection, credential), created) ∧ created.Healthy connection.bindingId := by
  have hfingerprint : (staleServer.findLiveByMailbox "owner@example.com").map
      BindingRow.fingerprint = some "f1" := by
    decide
  refine (create_usable_iff (keyed_run _) env 300 80 (rfl : _ = some "pw") (by decide)
    (by decide) (by decide) (by decide)).mpr ?_
  rintro ⟨existing, hfind, hsame, -⟩
  have hexisting : existing.fingerprint = "f1" := by
    have hfound : staleServer.findLiveByMailbox "owner@example.com" = some existing := hfind
    rw [hfound] at hfingerprint
    exact Option.some.inj hfingerprint
  rw [hexisting] at hsame
  exact absurd hsame (by decide)

/-- The binding is invalid since the mail server turned its password down. The new password is
verified and stored, and the binding is still invalid. -/
theorem rejected_not_usable : ¬∀ (system : System) (request : CreateRequest)
    (password : String) (result : VerifyResult) (verifying hashing : Nat),
    System.Reachable env system → request.mailboxPassword = some password →
    system.server.settings.enabled = true → system.server.settings.publicBaseUrl ≠ none →
    system.server.Stores result →
    system.server.countNonRevokedForBinding (system.server.bindingIdOf request.mailbox) <
      system.server.settings.maxConnectionsPerMailbox →
    ∃ connection credential created, system.server.create env request result verifying hashing =
      (.ok (connection, credential), created) ∧ created.Healthy connection.bindingId := by
  intro hclaim
  obtain ⟨connection, credential, created, hcreate, -⟩ :=
    hclaim (System.run env start (prepared ++ rejection)) (again "f1") "pw" verified 300 80
      ⟨settings, some "k1", 1000, _, rfl⟩ rfl (by decide) (by decide)
      (by decide) (by decide)
  have hrefused : (match (rejectedServer.create env (again "f1") verified 300 80).1 with
      | .ok _ => true
      | .error _ => false) = false := by
    decide
  have haccepted : (rejectedServer.create env (again "f1") verified 300 80).1 =
      .ok (connection, credential) := congrArg Prod.fst hcreate
  rw [haccepted] at hrefused
  cases hrefused

end OneConnection

end Mcp

end MailPanel
