import MailPanel.McpFlows

/-
One step of the whole service, taken apart: it evolves, or it is one of four steps
that sign in, issue a code, grant, or store a setup password.
-/

namespace MailPanel

namespace Mcp

open RowTable

/-- What a task holds across its wait that a later step relies on. -/
inductive Held where
  | nothing
  | login (request : AuthorizationRequestRow)
  | decide (wait : DecideWait)
  | issue (operation : IssueOperation) (pending : PendingIssue)

def Continuation.held : Continuation → Held
  | .login wait => .login wait.request
  | .decide wait => .decide wait
  | .start _ | .token _ _ | .revokeToken _ _ _ => .nothing

def Task.held : Task → Held
  | .resolvingClient _ next => next.held
  | .checkingPassword wait => .login wait.request
  | .hashing operation pending => .issue operation pending
  | .provisioning _ _ _ _ | .updatingCredentials _ _ | .testing _ => .nothing

/-- The enrollment that a task's password check began with. -/
def Task.presented : Task → Option EnrollmentRow
  | .checkingPassword wait => wait.enrollment
  | _ => none

/-- The decision that a task would carry out, if it is to approve. -/
def Task.approving (task : Task) : Option DecideWait :=
  match task.held with
  | .decide wait => if wait.decision = some "approve" then some wait else none
  | _ => none

/-- An open transaction, as `loadTransaction` gives it. -/
structure Server.Loaded (s : Server) (request : AuthorizationRequestRow) : Prop where
  mem : request ∈ s.requests
  incomplete : request.completedAt = none
  unexpired : s.now < request.expiresAt

/-- The id is, or was, that of an enrollment of this connection. -/
structure Server.EnrollmentOf (s : Server) (enrollmentId connectionId : Id) : Prop where
  drawn : enrollmentId < s.nextId
  connection : ∀ row ∈ s.enrollments, row.id = enrollmentId →
    row.connectionId = connectionId

/-- A transaction that somebody has signed in to and that is still open. -/
structure Server.Awaiting (s : Server) (row : AuthorizationRequestRow) : Prop where
  mem : row ∈ s.requests
  authenticated : row.authenticatedAt ≠ none
  incomplete : row.completedAt = none
  unexpired : s.now < row.expiresAt

/-- What a decision holds is a transaction that has been signed in to. -/
structure DecideWait.SignedIn (wait : DecideWait) : Prop where
  authenticated : wait.request.authenticatedAt ≠ none
  enrollment : wait.request.enrollmentId = some wait.enrollmentId
  connection : wait.request.connectionId = some wait.connectionId

/-- What an `issueEnrollment` has read when it begins to wait for its hash: a connection that is
not revoked, and its enrollment of before. A rotation has withdrawn the grants by then. -/
structure PendingIssue.Begun (rank : Id → Nat) (s : Server) (operation : IssueOperation)
    (pending : PendingIssue) : Prop where
  newUsername : pending.newUsername = true ↔ operation ≠ .reissue
  connection : ∃ row ∈ s.connections, row.id = pending.connectionId ∧ row.state ≠ .revoked
  previous : pending.previous = s.currentEnrollment rank pending.connectionId
  rotate : operation = .rotate → ∀ row ∈ s.grants,
    row.connectionId = pending.connectionId → row.revokedAt ≠ none

/-- What a new task holds is true of the tables when its wait begins. -/
def Held.Begun (rank : Id → Nat) (s : Server) : Held → Prop
  | .nothing => True
  | .login request => s.Loaded request
  | .decide wait => s.Loaded wait.request ∧ wait.SignedIn
  | .issue operation pending => pending.Begun rank s operation

def Task.Begun (rank : Id → Nat) (s : Server) (task : Task) : Prop :=
  task.held.Begun rank s ∧ task.presented = none

/-- A task keeps what it holds, and presents an enrollment it had or has just read. -/
def Task.GoesOn (s : Server) (old task : Task) : Prop :=
  task.held = old.held ∧ (task.presented = old.presented ∨
    ∀ enrollment, task.presented = some enrollment → enrollment ∈ s.enrollments)

/-- Every task after the step goes on with what one held before, or has just begun. -/
def TasksGoOn (rank : Id → Nat) (s : Server) (before after : List Task) : Prop :=
  Continues (Task.GoesOn s) (Task.Begun rank s) before after

namespace Server

variable {mandate : Mandate} {s t : Server}

/-- What a request may revoke or widen, as the tables stand. -/
def mandateOf (s : Server) : Label → Mandate
  | .request (.revoke id _) | .request (.delete id) =>
      ⟨fun wanted => wanted = id, fun _ _ => False⟩
  | .request (.mailboxEvent mailbox .deleted) =>
      ⟨fun wanted => ∃ binding, s.findLiveByMailbox mailbox = some binding ∧
        ∃ row ∈ s.listByBinding binding.id, row.id = wanted, fun _ _ => False⟩
  | .request (.update id fields) =>
      ⟨fun _ => False, fun wanted scope => wanted = id ∧
        (∃ connection, s.requireMutable id = .ok connection) ∧
        ∃ row ∈ s.connections, row.id = id ∧
          scope ∈ fields.scopes.getD row.scopes ∧ scope ∉ row.scopes⟩
  | _ => Mandate.none

/-- A transaction that a form may act on is stored, open and not expired. -/
theorem loadTransaction_loaded {form : AuthorizeForm} {cookieTxn : Option Id}
    {request : AuthorizationRequestRow}
    (hload : s.loadTransaction form cookieTxn = some request) : s.Loaded request := by
  rw [loadTransaction] at hload
  split at hload
  · split at hload
    · cases hload
    · split at hload
      · cases hload
      · rename_i found hfind
        split at hload
        · cases hload
        · rename_i hopen
          split at hload
          · cases hload
          · cases hload
            rw [not_or, Decidable.not_not, Nat.not_le] at hopen
            exact ⟨mem_of_lookup hfind, hopen.1, hopen.2⟩
  · cases hload

/-- A sign-in waits with a transaction that was open when it came. -/
theorem beginLogin_loaded {env : Env} {form : AuthorizeForm} {cookieTxn : Option Id}
    {ip : Option String} {wait : LoginWait}
    (hbegin : s.beginLogin env form cookieTxn ip = .ok wait) : s.Loaded wait.request := by
  rw [beginLogin] at hbegin
  split at hbegin
  · cases hbegin
  · split at hbegin
    · cases hbegin
    · rename_i request hload
      cases hbegin
      exact loadTransaction_loaded hload

/-- A decision waits with a transaction that was open and signed in when it came. -/
theorem beginDecide_loaded {env : Env} {form : AuthorizeForm} {cookieTxn : Option Id}
    {wait : DecideWait} (hbegin : s.beginDecide env form cookieTxn = .ok wait) :
    s.Loaded wait.request ∧ wait.SignedIn := by
  rw [beginDecide] at hbegin
  split at hbegin
  · cases hbegin
  · split at hbegin
    · cases hbegin
    · rename_i request hload
      split at hbegin
      · rename_i hauthenticated henrollment hconnection
        cases hbegin
        exact ⟨loadTransaction_loaded hload,
          ⟨by simp [hauthenticated], henrollment, hconnection⟩⟩
      · cases hbegin

/-- A sign-in keeps its transaction over the wait for its client. -/
theorem resumeLogin_request {wait : LoginWait} {client : Except OAuthError OAuthClientRow}
    {next : PasswordWait} (hresume : s.resumeLogin wait client = .ok next) :
    next.request = wait.request := by
  cases client with
  | error error => cases hresume
  | ok client =>
      simp only [resumeLogin] at hresume
      split at hresume
      · cases hresume
      · cases hresume
        rfl

/-- The enrollment that a password is checked against was read from the table after the first
wait. -/
theorem resumeLogin_enrollment {wait : LoginWait} {client : Except OAuthError OAuthClientRow}
    {next : PasswordWait} (hresume : s.resumeLogin wait client = .ok next) :
    ∀ enrollment, next.enrollment = some enrollment → enrollment ∈ s.enrollments := by
  intro enrollment hread
  cases client with
  | error error => cases hresume
  | ok client =>
      simp only [resumeLogin] at hresume
      split at hresume
      · cases hresume
      · cases hresume
        obtain ⟨username, -, hfind⟩ := Option.bind_eq_some_iff.mp hread
        exact List.mem_of_find?_eq_some hfind

/- The tables that revoking grants leaves alone -/

/-- The loop over the grants of a connection leaves connections and the other tables as they
are. -/
theorem revokeAllGrants_kept (s : Server) (connectionId : Id) (reason : String) :
    (s.revokeAllGrantsForConnection connectionId reason).connections = s.connections ∧
      (s.revokeAllGrantsForConnection connectionId reason).enrollments = s.enrollments := by
  rw [revokeAllGrantsForConnection]
  generalize s.listGrants connectionId = items
  induction items generalizing s with
  | nil => exact ⟨rfl, rfl⟩
  | cons grant items ih =>
      rw [List.foldl_cons]
      by_cases hlive : grant.revokedAt = none
      · rw [if_pos hlive]
        exact ih (s.revokeGrant grant.id reason)
      · rw [if_neg hlive]
        exact ih s

theorem findConnection_mem {id : Id} {connection : ConnectionRow}
    (hfind : s.findConnection id = some connection) :
    connection ∈ s.connections ∧ connection.id = id :=
  ⟨mem_of_lookup hfind, key_of_lookup hfind⟩

/-- A reissue that waits for its hash has just read the last enrollment of its connection. -/
theorem beginReissue_begun {rank : Id → Nat} {id : Id} {pending : PendingIssue}
    (hbegin : s.beginReissue rank id = .ok (pending, t)) :
    pending.Begun rank t .reissue := by
  obtain ⟨connection, hfind, hlive, hissue⟩ := beginReissue_eq_ok hbegin
  obtain ⟨hmem, -⟩ := findConnection_mem hfind
  cases hissue
  exact
    { newUsername := by simp
      connection := ⟨connection, hmem, rfl, hlive⟩
      previous := rfl
      rotate := fun h => by cases h }

/-- A rotation that waits for its hash has just ended the grants of its connection. -/
theorem beginRotate_begun {rank : Id → Nat} {id : Id} {pending : PendingIssue}
    (hbegin : s.beginRotate rank id = .ok (pending, t)) :
    pending.Begun rank t .rotate := by
  obtain ⟨connection, hfind, hlive, hissue⟩ := beginRotate_eq_ok hbegin
  obtain ⟨hmem, hid⟩ := findConnection_mem hfind
  obtain ⟨hconnections, -⟩ := revokeAllGrants_kept s id "credentials rotated"
  cases hissue
  exact
    { newUsername := by simp
      connection := ⟨connection, by rw [hconnections]; exact hmem, rfl, hlive⟩
      previous := rfl
      rotate := fun _ => by
        rw [← hid]
        exact revokeAllGrants_revoked connection.id "credentials rotated" }

theorem createConnectionAndIssue_begun {env : Env} {connectionExpiryDays : Option Nat}
    {request : CreateRequest} {binding : BindingRow} :
    ∀ task ∈ (s.createConnectionAndIssue env connectionExpiryDays request binding).2,
      task.Begun env.rank
        (s.createConnectionAndIssue env connectionExpiryDays request binding).1 := by
  simp only [createConnectionAndIssue, insertConnection]
  intro task htask
  by_cases hhealth : s.credentialHealth ((s.findBinding binding.id).getD binding) ≠ .healthy
  · simp [hhealth] at htask
  · simp only [hhealth, ↓reduceIte, List.mem_singleton] at htask ⊢
    subst htask
    refine ⟨?_, rfl⟩
    exact
      { newUsername := by simp [beginIssue]
        connection := ⟨_, List.mem_append_right _ List.mem_cons_self, rfl, by simp⟩
        previous := rfl
        rotate := fun h => by cases h }

/- A request up to its first wait -/

theorem evolves_verifyGranted (connection : ConnectionRow) (token : AccessTokenRow)
    (grant : GrantRow) : s.Evolves mandate (s.verifyGranted connection token grant).2 := by
  simp only [verifyGranted]
  split
  · exact Evolves.refl mandate s
  · split
    · exact Evolves.refl mandate s
    · split
      · exact Evolves.refl mandate s
      · split
        · exact (evolves_touchUsed _).trans (evolves_touchGrant _)
        · exact Evolves.refl mandate s

/-- A request with an access token evolves the tables, as it only stamps rows. -/
theorem evolves_verify (connectionId : List Char) (authorization : BearerHeader) :
    s.Evolves mandate (s.verify connectionId authorization).2 := by
  have hrefl := Evolves.refl mandate s
  simp only [verify]
  split
  · split
    · exact hrefl
    · split
      · exact hrefl
      · split
        · exact hrefl
        · split
          · exact hrefl
          · exact hrefl
          · split
            · exact hrefl
            · split
              · exact hrefl
              · split
                · exact hrefl
                · exact evolves_verifyGranted _ _ _
  · exact hrefl

/-- A request only evolves the tables before its first wait, whatever it asks for. -/
theorem receive_evolves (hs : s.WellFormed) (env : Env) (request : Request) :
    s.Evolves (s.mandateOf (.request request)) (s.receive env request).1 := by
  cases request with
  | start query =>
      simp only [receive]
      split <;> exact Evolves.refl _ s
  | login form cookieTxn ip =>
      simp only [receive]
      split <;> exact Evolves.refl _ s
  | decide form cookieTxn =>
      simp only [receive]
      split <;> exact Evolves.refl _ s
  | token credentials form =>
      simp only [receive]
      split <;> exact Evolves.refl _ s
  | revokeToken credentials token hint =>
      simp only [receive]
      split <;> exact Evolves.refl _ s
  | register request =>
      simp only [receive]
      split
      · exact evolves_register env request
      · exact Evolves.refl _ s
  | bearer connectionId authorization => exact evolves_verify _ _
  | credentialRejected bindingId =>
      simp only [receive]
      split
      · exact Evolves.refl _ s
      · exact evolves_invalidateBinding _ _ _
  | create request =>
      have hbegin : s.Evolves (s.mandateOf (.request (.create request)))
          (s.beginCreate request).2 := evolves_beginCreate request
      simp only [receive]
      cases hcreate : s.beginCreate request with
      | mk result resolved =>
          rw [hcreate] at hbegin
          cases result with
          | error error => exact hbegin
          | ok binding =>
              dsimp only
              split
              · exact hbegin.trans (evolves_createConnectionAndIssue _ _ _ _)
              · split
                · exact hbegin
                · exact hbegin
  | update id fields =>
      apply evolves_update
      intro hmutable row hrow hid scope hscope
      by_cases hallowed : scope ∈ row.scopes
      · exact Or.inl hallowed
      · exact Or.inr ⟨rfl, hmutable, row, hrow, hid, hscope, hallowed⟩
  | updateCredentials id password fingerprint =>
      have hbegin : s.Evolves (s.mandateOf (.request (.updateCredentials id password fingerprint)))
          (s.beginUpdateCredentials id fingerprint).2 :=
        evolves_beginUpdateCredentials id fingerprint
      simp only [receive]
      cases hupdate : s.beginUpdateCredentials id fingerprint with
      | mk result resolved =>
          rw [hupdate] at hbegin
          cases result with
          | error error => exact hbegin
          | ok binding =>
              dsimp only
              split
              · exact hbegin
              · exact hbegin
  | reissue id =>
      simp only [receive]
      split
      · exact Evolves.refl _ s
      · rename_i hbegin
        exact evolves_beginReissue hbegin
  | rotate id =>
      simp only [receive]
      split
      · exact Evolves.refl _ s
      · rename_i hbegin
        exact evolves_beginRotate hbegin
  | test id =>
      simp only [receive]
      split
      · exact Evolves.refl _ s
      · split <;> exact Evolves.refl _ s
  | disable id reason => exact evolves_setStateOf id .disabled reason
  | enable id => exact evolves_setStateOf id .enabled none
  | revoke id reason => exact evolves_revoke hs id reason rfl
  | delete id => exact evolves_delete hs id rfl
  | revokeGrant id grantId => exact evolves_revokeGrantOf id grantId
  | mailboxEvent mailbox event =>
      apply evolves_mailboxEvent hs
      intro binding hfind hdeleted row hrow
      subst hdeleted
      exact ⟨binding, hfind, row, hrow, rfl⟩
  | reconcile entries => exact evolves_reconcile entries
  | updateSettings settings => exact Evolves.of_tracked rfl

/-- A request that waits has just read what it holds, so that nothing in it is out of date yet. -/
theorem receive_begun (env : Env) (request : Request) :
    ∀ task ∈ (s.receive env request).2,
      task.Begun env.rank (s.receive env request).1 := by
  intro task htask
  cases request with
  | start query =>
      simp only [receive] at htask ⊢
      split at htask
      · cases htask
      · rw [List.mem_singleton.mp htask]
        exact ⟨trivial, rfl⟩
  | login form cookieTxn ip =>
      simp only [receive] at htask ⊢
      split at htask
      · cases htask
      · rename_i hbegin
        rw [List.mem_singleton.mp htask]
        exact ⟨beginLogin_loaded hbegin, rfl⟩
  | decide form cookieTxn =>
      simp only [receive] at htask ⊢
      split at htask
      · cases htask
      · rename_i hbegin
        rw [List.mem_singleton.mp htask]
        exact ⟨beginDecide_loaded hbegin, rfl⟩
  | token credentials form =>
      simp only [receive] at htask ⊢
      split at htask
      · rw [List.mem_singleton.mp htask]
        exact ⟨trivial, rfl⟩
      · cases htask
  | revokeToken credentials token hint =>
      simp only [receive] at htask ⊢
      split at htask
      · rw [List.mem_singleton.mp htask]
        exact ⟨trivial, rfl⟩
      · cases htask
  | credentialRejected bindingId =>
      simp only [receive] at htask
      split at htask <;> cases htask
  | create request =>
      simp only [receive] at htask ⊢
      cases hcreate : s.beginCreate request with
      | mk result resolved =>
          simp only [hcreate] at htask ⊢
          cases result with
          | error error => cases htask
          | ok binding =>
              cases hpassword : request.mailboxPassword with
              | none =>
                  simp only [hpassword] at htask ⊢
                  exact createConnectionAndIssue_begun task htask
              | some password =>
                  simp only [hpassword] at htask ⊢
                  split at htask
                  · cases htask
                  · rw [List.mem_singleton.mp htask]
                    exact ⟨trivial, rfl⟩
  | updateCredentials id password fingerprint =>
      simp only [receive] at htask ⊢
      split at htask
      · cases htask
      · split at htask
        · cases htask
        · rw [List.mem_singleton.mp htask]
          exact ⟨trivial, rfl⟩
  | reissue id =>
      simp only [receive] at htask ⊢
      split at htask
      · cases htask
      · rename_i hbegin
        rw [List.mem_singleton.mp htask]
        exact ⟨beginReissue_begun hbegin, rfl⟩
  | rotate id =>
      simp only [receive] at htask ⊢
      split at htask
      · cases htask
      · rename_i hbegin
        rw [List.mem_singleton.mp htask]
        exact ⟨beginRotate_begun hbegin, rfl⟩
  | test id =>
      simp only [receive] at htask ⊢
      split at htask
      · cases htask
      · split at htask
        · rw [List.mem_singleton.mp htask]
          exact ⟨trivial, rfl⟩
        · cases htask
  | register _ | bearer _ _ | update _ _ | disable _ _ | enable _ | revoke _ _ | delete _
  | revokeGrant _ _ | mailboxEvent _ _ | reconcile _ | updateSettings _ => cases htask

/- The steps that do more than evolve keep ids apart -/

theorem WellFormed.enrollmentOf (hs : s.WellFormed) {row : EnrollmentRow}
    (hrow : row ∈ s.enrollments) : s.EnrollmentOf row.id row.connectionId where
  drawn := hs.enrollment_lt row hrow
  connection := by
    intro other hother hid
    rw [eq_of_key_eq hs.enrollment_nodup hother hrow hid]

/-- The sign-in of a transaction binds it to an enrollment of the table and to that enrollment's
connection. -/
theorem WellFormed.showConsent (hs : s.WellFormed) (requestId connectionId enrollmentId : Id)
    (scopes : List McpScope) :
    (s.showConsent requestId connectionId enrollmentId scopes).WellFormed := by
  have hrequests := showConsent_requests s requestId connectionId enrollmentId scopes
  obtain ⟨requests, history, heq⟩ :=
    showConsent_kept s requestId connectionId enrollmentId scopes
  rw [heq] at hrequests ⊢
  dsimp only at hrequests
  exact
    { hs with
      request_lt := by
        intro row hrow
        rw [hrequests] at hrow
        obtain ⟨old, hold, hrow⟩ := exists_of_mem_updateWhere hrow
        rw [hrow]
        split <;> exact hs.request_lt old hold
      request_nodup := by
        dsimp only
        rw [hrequests, map_updateWhere]
        · exact hs.request_nodup
        · exact fun _ _ => rfl }

/-- A new code is bound to rows that are stored, and its id is drawn together with its secret. -/
theorem WellFormed.issued (hs : s.WellFormed) (input : IssueCodeInput) :
    (s.issued input).WellFormed where
  connection_lt := fun row hrow => Nat.lt_add_right 2 (hs.connection_lt row hrow)
  connection_nodup := hs.connection_nodup
  enrollment_lt := by
    intro row hrow
    obtain ⟨old, hold, hrow⟩ := exists_of_mem_updateWhere hrow
    rw [hrow]
    split <;> exact Nat.lt_add_right 2 (hs.enrollment_lt old hold)
  enrollment_nodup := by
    simp only [Server.issued, reserveEnrollment]
    rw [map_updateWhere]
    · exact hs.enrollment_nodup
    · exact fun _ _ => rfl
  request_lt := fun row hrow => Nat.lt_add_right 2 (hs.request_lt row hrow)
  request_nodup := hs.request_nodup
  code_lt := by
    intro row hrow
    rcases List.mem_append.mp hrow with hrow | hrow
    · exact Nat.lt_add_right 2 (hs.code_lt row hrow)
    · rw [List.mem_singleton.mp hrow]
      exact Nat.lt_add_of_pos_right (by decide)
  grant_lt := fun row hrow => Nat.lt_add_right 2 (hs.grant_lt row hrow)

/-- A new grant belongs to the connection of its code, and its tokens draw their ids after it. -/
theorem WellFormed.storeGrant (hs : s.WellFormed) (client : OAuthClientRow)
    (code : AuthorizationCodeRow) (scopes : List McpScope) (codeVerifier : String) :
    (s.storeGrant client code scopes codeVerifier).WellFormed where
  connection_lt := fun row hrow => Nat.lt_succ_of_lt (hs.connection_lt row hrow)
  connection_nodup := hs.connection_nodup
  enrollment_lt := fun row hrow => Nat.lt_succ_of_lt (hs.enrollment_lt row hrow)
  enrollment_nodup := hs.enrollment_nodup
  request_lt := fun row hrow => Nat.lt_succ_of_lt (hs.request_lt row hrow)
  request_nodup := hs.request_nodup
  code_lt := by
    intro row hrow
    obtain ⟨old, hold, hrow⟩ := exists_of_mem_updateWhere hrow
    rw [hrow]
    split <;> exact Nat.lt_succ_of_lt (hs.code_lt old hold)
  grant_lt := by
    intro row hrow
    rcases List.mem_append.mp hrow with hrow | hrow
    · exact Nat.lt_succ_of_lt (hs.grant_lt row hrow)
    · rw [List.mem_singleton.mp hrow]
      exact Nat.lt_succ_self _

/-- A reissued enrollment still belongs to its connection: the row stays, with a new password
and a new end. -/
theorem WellFormed.resetEnrollment (hs : s.WellFormed) (enrollmentId : Id)
    (passwordHash : Secret) (expiresAt : Time) :
    (s.resetEnrollment enrollmentId passwordHash expiresAt).WellFormed := by
  obtain ⟨history, heq⟩ :=
    resetEnrollment_kept s enrollmentId passwordHash expiresAt
  rw [heq]
  exact
    { hs with
      enrollment_lt := by
        intro row hrow
        obtain ⟨old, hold, hrow⟩ := exists_of_mem_updateWhere hrow
        rw [hrow]
        split <;> exact hs.enrollment_lt old hold
      enrollment_nodup := by
        dsimp only
        rw [map_updateWhere]
        · exact hs.enrollment_nodup
        · exact fun _ _ => rfl }

theorem WellFormed.storeEnrollment (hs : s.WellFormed) (connectionId : Id) (username : Nat)
    (passwordHash : Secret) (expiresAt : Time) :
    (s.storeEnrollment connectionId username passwordHash expiresAt).WellFormed where
  connection_lt := fun row hrow => Nat.lt_succ_of_lt (hs.connection_lt row hrow)
  connection_nodup := hs.connection_nodup
  enrollment_lt := by
    intro row hrow
    rcases List.mem_append.mp hrow with hrow | hrow
    · obtain ⟨old, hold, hrow⟩ := exists_of_mem_updateWhere hrow
      rw [hrow]
      split <;> exact Nat.lt_succ_of_lt (hs.enrollment_lt old hold)
    · rw [List.mem_singleton.mp hrow]
      exact Nat.lt_succ_self _
  enrollment_nodup := by
    simp only [Server.storeEnrollment, revokeEnrollments, List.map_append, List.map_cons,
      List.map_nil]
    rw [map_updateWhere]
    · refine List.nodup_append.mpr ⟨hs.enrollment_nodup, by simp, ?_⟩
      intro old hold new hnew heq
      obtain ⟨row, hrow, rfl⟩ := List.mem_map.mp hold
      rw [List.mem_singleton.mp hnew] at heq
      exact Nat.lt_irrefl _ (heq ▸ hs.enrollment_lt row hrow)
    · exact fun _ _ => rfl
  request_lt := fun row hrow => Nat.lt_succ_of_lt (hs.request_lt row hrow)
  request_nodup := hs.request_nodup
  code_lt := fun row hrow => Nat.lt_succ_of_lt (hs.code_lt row hrow)
  grant_lt := fun row hrow => Nat.lt_succ_of_lt (hs.grant_lt row hrow)

end Server

namespace System

/-- The step that a label brings about is of one of these kinds: nearly every step only lets
the tables evolve, and each of those that sign somebody in, decide or issue has a case of
its own. -/
inductive Stepped (env : Env) (system : System) (label : Label) : System → Prop
  | evolved {server : Server} {tasks : List Task}
      (server_evolves : system.server.Evolves (system.server.mandateOf label) server)
      (tasks_goOn : TasksGoOn env.rank server system.tasks tasks) :
      Stepped env system label ⟨server, tasks⟩
  | signedIn {tasks : List Task} {wait : PasswordWait} {enrollment : EnrollmentRow}
      {connection : ConnectionRow}
      (held : ∃ task ∈ system.tasks, task.held = .login wait.request ∧
        task.presented = some enrollment)
      (noProblem : system.server.enrollmentProblem enrollment wait.request = none)
      (connection_found :
        system.server.findConnection enrollment.connectionId = some connection)
      (tasks_subset : ∀ task ∈ tasks, task ∈ system.tasks) :
      Stepped env system label
        ⟨(system.server.recordAttempt wait.ip wait.form.username true).showConsent
          wait.request.id connection.id enrollment.id
          (grantedScopes wait.request connection.scopes), tasks⟩
  | approved {server : Server} {tasks : List Task} {wait : DecideWait}
      {client : OAuthClientRow} {enrollment : EnrollmentRow} {connection : ConnectionRow}
      (held : ∃ index task, label = .resume index .done ∧ system.tasks[index]? = some task ∧
        task.held = .decide wait)
      (approval : system.server.Approval wait client enrollment connection)
      (server_evolves :
        (system.server.issued (Server.issueInput wait client enrollment connection)).Evolves
          Mandate.none server)
      (tasks_subset : ∀ task ∈ tasks, task ∈ system.tasks) :
      Stepped env system label ⟨server, tasks⟩
  | redeemed {tasks : List Task} {index : Nat} {resolved : Except OAuthError OAuthClientRow}
      {presented : PresentedSecret} {form : TokenForm} {client : OAuthClientRow}
      {code : AuthorizationCodeRow} {codeVerifier : String} {scopes : List McpScope}
      (label_eq : label = .resume index .done)
      (task_at : system.tasks[index]? =
        some (.resolvingClient (.resolved resolved) (.token presented form)))
      (redemption : system.server.Redemption env
        ⟨client, form.code, form.redirectUri, form.codeVerifier, form.resource⟩ code
        codeVerifier scopes)
      (tasks_subset : ∀ task ∈ tasks, task ∈ system.tasks) :
      Stepped env system label
        ⟨((system.server.redeemed code).grantCode client code scopes codeVerifier).2, tasks⟩
  | hashed {index : Nat} {operation : IssueOperation} {pending : PendingIssue}
      (label_eq : label = .resume index .done)
      (task_at : system.tasks[index]? = some (.hashing operation pending)) :
      Stepped env system label
        ⟨system.server.finishHash operation pending, system.tasks.eraseIdx index⟩

variable {env : Env} {system : System}

theorem Task.GoesOn.refl (server : Server) (task : Task) : Task.GoesOn server task task :=
  ⟨rfl, Or.inl rfl⟩

theorem tasksGoOn_eraseIdx {rank : Id → Nat} {server : Server} {tasks next : List Task}
    {index : Nat} {task : Task} (htask : tasks[index]? = some task)
    (hnext : ∀ new ∈ next, Task.GoesOn server task new ∨ new.Begun rank server) :
    TasksGoOn rank server tasks (tasks.eraseIdx index ++ next) := by
  intro new hnew
  rcases List.mem_append.mp hnew with hnew | hnew
  · exact Or.inl ⟨new, List.mem_of_mem_eraseIdx hnew, Task.GoesOn.refl server new⟩
  · rcases hnext new hnew with hgoesOn | hbegun
    · exact Or.inl ⟨task, List.mem_of_getElem? htask, hgoesOn⟩
    · exact Or.inr hbegun

/-- A request that goes on with its resolved client, whichever of the five it is. -/
theorem continueWith_stepped {index : Nat} {resolved : Except OAuthError OAuthClientRow}
    {next : Continuation}
    (htask : system.tasks[index]? = some (.resolvingClient (.resolved resolved) next)) :
    Stepped env system (.resume index .done)
      ⟨(system.server.continueWith env resolved next).1,
        system.tasks.eraseIdx index ++ (system.server.continueWith env resolved next).2⟩ := by
  have hmem : Task.resolvingClient (.resolved resolved) next ∈ system.tasks :=
    List.mem_of_getElem? htask
  have hsubset : ∀ task ∈ system.tasks.eraseIdx index ++ [], task ∈ system.tasks := by
    intro task hin
    rw [List.append_nil] at hin
    exact List.mem_of_mem_eraseIdx hin
  have hgoOn : ∀ server, TasksGoOn env.rank server system.tasks
      (system.tasks.eraseIdx index ++ []) := by
    intro server
    exact tasksGoOn_eraseIdx htask (by simp)
  cases next with
  | start wait => exact .evolved (Server.evolves_finishStart env wait resolved) (hgoOn _)
  | login wait =>
      simp only [Server.continueWith]
      cases hresume : system.server.resumeLogin wait resolved with
      | error page => exact .evolved (Server.Evolves.refl _ _) (hgoOn _)
      | ok password =>
          refine .evolved (Server.Evolves.refl _ _) (tasksGoOn_eraseIdx htask ?_)
          intro new hnew
          rw [List.mem_singleton.mp hnew]
          exact Or.inl ⟨congrArg Held.login (Server.resumeLogin_request hresume),
            Or.inr (Server.resumeLogin_enrollment hresume)⟩
  | decide wait =>
      rcases Server.finishDecide_cases Mandate.none wait resolved with
        hevolves | ⟨client, enrollment, connection, -, happroval, hevolves⟩
      · exact .evolved hevolves (hgoOn _)
      · exact .approved ⟨index, _, rfl, htask, rfl⟩ happroval hevolves hsubset
  | token presented form =>
      simp only [Server.continueWith]
      cases hclient : Server.finishAuthenticate presented resolved with
      | error error => exact .evolved (Server.Evolves.refl _ _) (hgoOn _)
      | ok client =>
          simp only [Server.answerToken]
          split
          · rcases Server.exchangeCode_cases Mandate.none env
                ⟨client, form.code, form.redirectUri, form.codeVerifier, form.resource⟩ with
              hevolves | ⟨code, codeVerifier, scopes, hredemption, heq⟩
            · exact .evolved hevolves (hgoOn _)
            · rw [heq]
              exact .redeemed rfl htask hredemption hsubset
          · split
            · exact .evolved (Server.Evolves.refl _ _) (hgoOn _)
            · exact .evolved (Server.evolves_refresh _) (hgoOn _)
          · exact .evolved (Server.Evolves.refl _ _) (hgoOn _)
  | revokeToken presented token hint =>
      simp only [Server.continueWith]
      split
      · exact .evolved (Server.evolves_revokeToken _ _ _) (hgoOn _)
      · exact .evolved (Server.Evolves.refl _ _) (hgoOn _)

/-- The end of a wait. Every task that can wait has its case, and what it does then is one
segment. -/
theorem proceed_stepped {index : Nat} {reply : Reply} {task : Task} {server : Server}
    {next : List Task} (htask : system.tasks[index]? = some task)
    (hproceed : system.server.proceed env task reply = some (server, next)) :
    Stepped env system (.resume index reply)
      ⟨server, system.tasks.eraseIdx index ++ next⟩ := by
  have hmem : task ∈ system.tasks := List.mem_of_getElem? htask
  unfold Server.proceed at hproceed
  split at hproceed
  · cases hproceed
    exact .evolved (Server.Evolves.refl _ _) (tasksGoOn_eraseIdx htask (by simp))
  · cases hproceed
    refine .evolved (Server.evolves_finishFetch _ _) (tasksGoOn_eraseIdx htask ?_)
    intro new hnew
    rw [List.mem_singleton.mp hnew]
    exact Or.inl ⟨rfl, Or.inl rfl⟩
  · have hpair := Option.some.inj hproceed
    have hserver : (system.server.continueWith env _ _).1 = server := congrArg Prod.fst hpair
    have hnext : (system.server.continueWith env _ _).2 = next := congrArg Prod.snd hpair
    rw [← hserver, ← hnext]
    exact continueWith_stepped htask
  · cases hproceed
    rename_i wait
    rcases Server.finishLogin_cases Mandate.none wait with
      hevolves | ⟨enrollment, connection, hread, hproblem, hfind, heq⟩
    · exact .evolved hevolves (tasksGoOn_eraseIdx htask (by simp))
    · rw [heq]
      refine .signedIn ⟨_, hmem, rfl, hread⟩ hproblem hfind ?_
      intro other hother
      rw [List.append_nil] at hother
      exact List.mem_of_mem_eraseIdx hother
  · rename_i connectionExpiryDays request binding password result
    have hprovision : system.server.Evolves Mandate.none
        (system.server.finishProvision binding.id password result).2 :=
      Server.evolves_finishProvision _ _ _
    split at hproceed
    · rename_i heq
      cases hproceed
      rw [heq] at hprovision
      exact .evolved hprovision (tasksGoOn_eraseIdx htask (by simp))
    · rename_i provisioned heq
      rw [heq] at hprovision
      have hpair := Option.some.inj hproceed
      have hserver : (provisioned.createConnectionAndIssue env _ _ _).1 = server :=
        congrArg Prod.fst hpair
      have hnext : (provisioned.createConnectionAndIssue env _ _ _).2 = next :=
        congrArg Prod.snd hpair
      rw [← hserver, ← hnext]
      refine .evolved (hprovision.trans (Server.evolves_createConnectionAndIssue _ _ _ _))
        (tasksGoOn_eraseIdx htask ?_)
      intro new hnew
      exact Or.inr (Server.createConnectionAndIssue_begun new hnew)
  · cases hproceed
    rw [List.append_nil]
    exact .hashed rfl htask
  · cases hproceed
    exact .evolved (Server.evolves_finishUpdateCredentials _ _ _)
      (tasksGoOn_eraseIdx htask (by simp))
  · cases hproceed
    exact .evolved (Server.evolves_finishTest _ _) (tasksGoOn_eraseIdx htask (by simp))
  · cases hproceed

theorem tasksGoOn_refl (rank : Id → Nat) (server : Server) (tasks : List Task) :
    TasksGoOn rank server tasks tasks :=
  fun task htask => Or.inl ⟨task, htask, Task.GoesOn.refl server task⟩

/-- Every step is of one of the five kinds. It is proved once, from the code of the machine, and
every invariant is proved from it. -/
theorem step_stepped (hs : system.server.WellFormed) (label : Label) :
    Stepped env system label (system.step env label) := by
  cases label with
  | request request =>
      refine .evolved (Server.receive_evolves hs env request) ?_
      intro new hnew
      rcases List.mem_append.mp hnew with hnew | hnew
      · exact Or.inl ⟨new, hnew, Task.GoesOn.refl _ new⟩
      · exact Or.inr (Server.receive_begun env request new hnew)
  | resume index reply =>
      have hsame : Stepped env system (.resume index reply) system :=
        .evolved (Server.Evolves.refl _ _) (tasksGoOn_refl _ _ _)
      simp only [step]
      cases htask : system.tasks[index]? with
      | none => exact hsame
      | some task =>
          cases hproceed : system.server.proceed env task reply with
          | none => simpa [hproceed] using hsame
          | some next => simpa [hproceed] using proceed_stepped htask hproceed
  | advance milliseconds =>
      exact .evolved (Server.evolves_advance milliseconds) (tasksGoOn_refl _ _ _)
  | housekeeping => exact .evolved (Server.evolves_purgeExpired _) (tasksGoOn_refl _ _ _)
  | restart vaultKeyId =>
      refine .evolved (Server.Evolves.of_tracked rfl) ?_
      intro new hnew
      cases hnew

theorem tasksGoOn_of_subset {rank : Id → Nat} {server : Server} {before after : List Task}
    (hsubset : ∀ task ∈ after, task ∈ before) : TasksGoOn rank server before after :=
  fun task htask => Or.inl ⟨task, hsubset task htask, Task.GoesOn.refl server task⟩

theorem Stepped.tasksGoOn {label : Label} {next : System}
    (hstep : Stepped env system label next) :
    TasksGoOn env.rank next.server system.tasks next.tasks := by
  cases hstep with
  | evolved _ htasks => exact htasks
  | signedIn _ _ _ hsubset => exact tasksGoOn_of_subset hsubset
  | approved _ _ _ hsubset => exact tasksGoOn_of_subset hsubset
  | redeemed _ _ _ hsubset => exact tasksGoOn_of_subset hsubset
  | hashed _ _ => exact tasksGoOn_of_subset fun _ => List.mem_of_mem_eraseIdx

/-- Ids are kept apart, and only a reissue keeps a username. Tasks at a wait are included, since
what they hold was read in an earlier state. -/
structure Sound (system : System) : Prop where
  server : system.server.WellFormed
  presented : ∀ task ∈ system.tasks, ∀ enrollment, task.presented = some enrollment →
    system.server.EnrollmentOf enrollment.id enrollment.connectionId
  newUsername : ∀ task ∈ system.tasks, ∀ operation pending,
    task.held = .issue operation pending →
      (pending.newUsername = true ↔ operation ≠ .reissue)

theorem Sound.finishHash_wellFormed (hsystem : system.Sound) {operation : IssueOperation}
    {pending : PendingIssue} (hmem : .hashing operation pending ∈ system.tasks) :
    (system.server.finishHash operation pending).WellFormed := by
  have hs := hsystem.server
  rcases Server.finishHash_cases operation pending
      (hsystem.newUsername _ hmem operation pending rfl) with
    heq | ⟨previous, -, -, heq⟩ | ⟨-, heq⟩
  · rw [heq]
    exact hs
  · rw [heq]
    exact hs.resetEnrollment _ _ _
  · rw [heq]
    have hnoted : (system.server.noted operation pending.connectionId).WellFormed := by
      cases operation <;> exact { hs with }
    exact hnoted.storeEnrollment _ _ _ _

/-- Grants go on in every step, and a new one has a new id. A grant is never brought back once
it is revoked. -/
theorem Stepped.grants (hsystem : system.Sound) {label : Label} {next : System}
    (hstep : Stepped env system label next) :
    system.server.nextId ≤ next.server.nextId ∧
      Continues GrantRow.GoesOn (fun row => system.server.nextId ≤ row.id)
        system.server.grants next.server.grants := by
  have hgrants : ∀ {mandate server next}, Server.Evolves mandate server next →
      Continues GrantRow.GoesOn (fun row => system.server.nextId ≤ row.id) server.grants
        next.grants := fun hevolves => hevolves.grants.mono (fun _ _ h => h) (fun _ => False.elim)
  have hrefl : Continues GrantRow.GoesOn (fun row => system.server.nextId ≤ row.id)
      system.server.grants system.server.grants := Continues.refl GrantRow.GoesOn.refl _
  cases hstep with
  | evolved hevolves _ => exact ⟨hevolves.nextId_le, hgrants hevolves⟩
  | @signedIn _ wait enrollment connection =>
      obtain ⟨requests, history, heq⟩ := Server.showConsent_kept
        (system.server.recordAttempt wait.ip wait.form.username true) wait.request.id
        connection.id enrollment.id (grantedScopes wait.request connection.scopes)
      rw [heq]
      exact ⟨Nat.le_refl _, hrefl⟩
  | approved _ _ hevolves _ =>
      have hissued := hgrants hevolves
      exact ⟨Nat.le_trans (Nat.le_add_right _ 2) hevolves.nextId_le, hissued⟩
  | @redeemed _ _ _ _ _ client code codeVerifier scopes =>
      have hevolves : Server.Evolves Mandate.none _
          ((system.server.redeemed code).grantCode client code scopes codeVerifier).2 :=
        Server.evolves_grantCode client code scopes codeVerifier
      refine ⟨Nat.le_trans (Nat.le_succ _) hevolves.nextId_le, ?_⟩
      apply Continues.trans GrantRow.GoesOn.trans _ (fun _ h => h) _ (hgrants hevolves)
      · exact fun row => system.server.nextId ≤ row.id
      · intro old row hnew hgoesOn
        rw [hgoesOn.1]
        exact hnew
      · apply Continues.append GrantRow.GoesOn.refl
        intro row hrow
        rw [List.mem_singleton.mp hrow]
        exact Nat.le_refl _
  | @hashed _ operation pending _ htask =>
      rcases Server.finishHash_cases operation pending
          (hsystem.newUsername _ (List.mem_of_getElem? htask) operation pending rfl) with
        heq | ⟨previous, -, -, heq⟩ | ⟨-, heq⟩
      · rw [heq]
        exact ⟨Nat.le_refl _, hrefl⟩
      · obtain ⟨history, hreset⟩ := Server.resetEnrollment_kept system.server previous.id
          pending.setupPassword (system.server.setupExpiry pending)
        rw [heq, hreset]
        exact ⟨Nat.le_refl _, hrefl⟩
      · rw [heq]
        cases operation <;> exact ⟨Nat.le_succ _, hrefl⟩

/-- The enrollments go on as those of their connections, and a new one has a new id. -/
def EnrollmentsGoOn (nextId : Id) (before after : List EnrollmentRow) : Prop :=
  Continues (fun old row : EnrollmentRow =>
      row.id = old.id ∧ row.connectionId = old.connectionId)
    (fun row => nextId ≤ row.id) before after

theorem EnrollmentsGoOn.refl (nextId : Id) (rows : List EnrollmentRow) :
    EnrollmentsGoOn nextId rows rows :=
  Continues.refl (fun _ => ⟨rfl, rfl⟩) rows

theorem EnrollmentsGoOn.trans {nextId : Id} {before between after : List EnrollmentRow}
    (hfirst : EnrollmentsGoOn nextId before between)
    (hsecond : EnrollmentsGoOn nextId between after) :
    EnrollmentsGoOn nextId before after := by
  apply Continues.trans _ _ (fun _ h => h) hfirst hsecond
  · intro first second third hfirst hsecond
    exact ⟨hsecond.1.trans hfirst.1, hsecond.2.trans hfirst.2⟩
  · intro old row hnew hgoesOn
    rw [hgoesOn.1]
    exact hnew

theorem EnrollmentsGoOn.updateWhere {nextId : Id} {rows : List EnrollmentRow}
    {condition : EnrollmentRow → Bool} {change : EnrollmentRow → EnrollmentRow}
    (hchange : ∀ row, (change row).id = row.id ∧
      (change row).connectionId = row.connectionId) :
    EnrollmentsGoOn nextId rows (updateWhere rows condition change) :=
  Continues.updateWhere (fun _ => ⟨rfl, rfl⟩) fun row _ _ => hchange row

theorem EnrollmentsGoOn.evolves {mandate : Mandate} {s t : Server} (nextId : Id)
    (h : s.Evolves mandate t) : EnrollmentsGoOn nextId s.enrollments t.enrollments := by
  apply h.enrollments.mono
  · intro old row hgoesOn
    rw [hgoesOn.1]
    exact ⟨rfl, rfl⟩
  · exact fun _ => False.elim

theorem Stepped.enrollments (hsystem : system.Sound) {label : Label} {next : System}
    (hstep : Stepped env system label next) :
    EnrollmentsGoOn system.server.nextId system.server.enrollments
      next.server.enrollments := by
  have hrefl := EnrollmentsGoOn.refl system.server.nextId system.server.enrollments
  cases hstep with
  | evolved hevolves _ => exact EnrollmentsGoOn.evolves _ hevolves
  | @signedIn _ wait enrollment connection =>
      obtain ⟨requests, history, heq⟩ := Server.showConsent_kept
        (system.server.recordAttempt wait.ip wait.form.username true) wait.request.id
        connection.id enrollment.id (grantedScopes wait.request connection.scopes)
      rw [heq]
      exact hrefl
  | @approved _ _ wait client enrollment connection _ _ hevolves _ =>
      have hissued : EnrollmentsGoOn system.server.nextId system.server.enrollments
          (system.server.issued
            (Server.issueInput wait client enrollment connection)).enrollments :=
        EnrollmentsGoOn.updateWhere fun _ => ⟨rfl, rfl⟩
      exact hissued.trans (EnrollmentsGoOn.evolves _ hevolves)
  | @redeemed _ _ _ _ _ client code codeVerifier scopes =>
      have hredeemed : system.server.Evolves Mandate.none (system.server.redeemed code) :=
        Server.evolves_redeemed code
      have hgranted : Server.Evolves Mandate.none _
          ((system.server.redeemed code).grantCode client code scopes codeVerifier).2 :=
        Server.evolves_grantCode client code scopes codeVerifier
      have hgoOn := EnrollmentsGoOn.evolves system.server.nextId hgranted
      exact (EnrollmentsGoOn.evolves _ hredeemed).trans hgoOn
  | @hashed _ operation pending _ htask =>
      rcases Server.finishHash_cases operation pending
          (hsystem.newUsername _ (List.mem_of_getElem? htask) operation pending rfl) with
        heq | ⟨previous, -, -, heq⟩ | ⟨-, heq⟩
      · rw [heq]
        exact hrefl
      · obtain ⟨history, hreset⟩ := Server.resetEnrollment_kept system.server previous.id
          pending.setupPassword (system.server.setupExpiry pending)
        rw [heq, hreset]
        exact EnrollmentsGoOn.updateWhere fun _ => ⟨rfl, rfl⟩
      · rw [heq]
        have hnew : EnrollmentsGoOn system.server.nextId
            (system.server.revokeEnrollments pending.connectionId).enrollments
            ((system.server.noted operation pending.connectionId).storeEnrollment
              pending.connectionId pending.username pending.setupPassword
              (system.server.setupExpiry pending)).enrollments := by
          intro row hrow
          rcases List.mem_append.mp hrow with hrow | hrow
          · refine Or.inl ⟨row, ?_, rfl, rfl⟩
            cases operation <;> exact hrow
          · rw [List.mem_singleton.mp hrow]
            cases operation <;> exact Or.inr (Nat.le_refl _)
        have hrevoked : EnrollmentsGoOn system.server.nextId system.server.enrollments
            (system.server.revokeEnrollments pending.connectionId).enrollments :=
          EnrollmentsGoOn.updateWhere fun _ => ⟨rfl, rfl⟩
        exact hrevoked.trans hnew

theorem Stepped.enrollmentOf (hsystem : system.Sound) {label : Label} {next : System}
    (hstep : Stepped env system label next) {enrollmentId connectionId : Id}
    (h : system.server.EnrollmentOf enrollmentId connectionId) :
    next.server.EnrollmentOf enrollmentId connectionId where
  drawn := Nat.lt_of_lt_of_le h.drawn (hstep.grants hsystem).1
  connection := by
    apply (hstep.enrollments hsystem).forall _ _ h.connection
    · intro old row hgoesOn hold hid
      rw [hgoesOn.2]
      exact hold (hgoesOn.1.symm.trans hid)
    · intro row hnew hid
      rw [hid] at hnew
      exact absurd h.drawn (Nat.not_lt.mpr hnew)

theorem Stepped.wellFormed (hsystem : system.Sound) {label : Label} {next : System}
    (hstep : Stepped env system label next) : next.server.WellFormed := by
  have hs := hsystem.server
  cases hstep with
  | evolved hevolves _ => exact hs.evolves hevolves
  | @signedIn _ wait =>
      have hattempt : system.server.Evolves Mandate.none
          (system.server.recordAttempt wait.ip wait.form.username true) :=
        Server.evolves_recordAttempt _ _ _
      exact (hs.evolves hattempt).showConsent _ _ _ _
  | approved _ _ hevolves _ => exact (hs.issued _).evolves hevolves
  | @redeemed _ _ _ _ _ client code codeVerifier scopes =>
      have hredeemed : system.server.Evolves Mandate.none (system.server.redeemed code) :=
        Server.evolves_redeemed code
      have hgranted : Server.Evolves Mandate.none _
          ((system.server.redeemed code).grantCode client code scopes codeVerifier).2 :=
        Server.evolves_grantCode client code scopes codeVerifier
      exact ((hs.evolves hredeemed).storeGrant _ _ _ _).evolves hgranted
  | hashed _ htask => exact hsystem.finishHash_wellFormed (List.mem_of_getElem? htask)

theorem Sound.stepped {label : Label} {next : System} (hsystem : system.Sound)
    (hstep : Stepped env system label next) : next.Sound where
  server := hstep.wellFormed hsystem
  presented := by
    intro task htask enrollment hpresented
    rcases hstep.tasksGoOn task htask with ⟨old, hold, -, hsame | hread⟩ | hbegun
    · rw [hsame] at hpresented
      exact hstep.enrollmentOf hsystem (hsystem.presented old hold enrollment hpresented)
    · exact (hstep.wellFormed hsystem).enrollmentOf (hread enrollment hpresented)
    · rw [hbegun.2] at hpresented
      cases hpresented
  newUsername := by
    intro task htask operation pending hheld
    rcases hstep.tasksGoOn task htask with ⟨old, hold, hsame⟩ | hbegun
    · exact hsystem.newUsername old hold operation pending (hsame.1.symm.trans hheld)
    · have hheldBegun := hbegun.1
      rw [hheld] at hheldBegun
      exact hheldBegun.newUsername

theorem Sound.initial (settings : McpSettings) (vaultKeyId : Option String) (now : Time) :
    (System.initial settings vaultKeyId now).Sound where
  server := by constructor <;> simp [System.initial, Server.initial]
  presented := by simp [System.initial]
  newUsername := by simp [System.initial]

theorem Sound.step (hsystem : system.Sound) (label : Label) :
    (system.step env label).Sound :=
  hsystem.stepped (step_stepped hsystem.server label)

/-- A state that some sequence of steps from empty tables leads to. -/
def Reachable (env : Env) (system : System) : Prop :=
  ∃ settings vaultKeyId now labels,
    system = run env (System.initial settings vaultKeyId now) labels

theorem Reachable.step (hsystem : Reachable env system) (label : Label) :
    Reachable env (system.step env label) := by
  obtain ⟨settings, vaultKeyId, now, labels, rfl⟩ := hsystem
  refine ⟨settings, vaultKeyId, now, labels ++ [label], ?_⟩
  rw [run, run, StepRun.run_append]
  rfl

/-- The run lemma for invariants that every kind of step preserves. -/
theorem Reachable.invariant {Invariant : System → Prop}
    (hinitial : ∀ settings vaultKeyId now,
      Invariant (System.initial settings vaultKeyId now))
    (hstep : ∀ system label next, system.Sound → Invariant system →
      Stepped env system label next → Invariant next)
    (hsystem : Reachable env system) : system.Sound ∧ Invariant system := by
  obtain ⟨settings, vaultKeyId, now, labels, rfl⟩ := hsystem
  apply StepRun.invariant_of_run (System.step env)
    (fun system => system.Sound ∧ Invariant system)
  · intro system label h
    exact ⟨h.1.step label, hstep system label _ h.1 h.2 (step_stepped h.1.server label)⟩
  · exact ⟨Sound.initial settings vaultKeyId now, hinitial settings vaultKeyId now⟩

end System

end Mcp

end MailPanel
