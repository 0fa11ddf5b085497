import MailPanel.McpSingleUse

/-
What a bearer token lets its client do: no more than the operator allows now, and no
more than the consent page showed, as long as nobody adds a permission to a connection
under an open consent page that does not show it.
-/

namespace MailPanel

namespace Mcp

open RowTable

/-- The permissions this event shows for a request on a connection, if it does. -/
def Event.consentFor (requestId connectionId : Id) : Event → Option (List McpScope)
  | .consentShown request connection scopes =>
      if request = requestId ∧ connection = connectionId then some scopes else none
  | _ => none

/-- The permissions on the last consent page of a request on a connection. -/
def lastConsent (history : List Event) (requestId connectionId : Id) :
    Option (List McpScope) :=
  history.findSome? (Event.consentFor requestId connectionId)

/-- Events that show no consent page leave the last page as it was. -/
theorem lastConsent_append {events : List Event} (history : List Event)
    {requestId connectionId : Id}
    (hevents : ∀ event ∈ events, event.consentFor requestId connectionId = none) :
    lastConsent (events ++ history) requestId connectionId =
      lastConsent history requestId connectionId := by
  rw [lastConsent, List.findSome?_append, List.findSome?_eq_none_iff.mpr hevents]
  rfl

/-- The same for one event. -/
theorem lastConsent_cons {event : Event} (history : List Event) {requestId connectionId : Id}
    (hevent : event.consentFor requestId connectionId = none) :
    lastConsent (event :: history) requestId connectionId =
      lastConsent history requestId connectionId := by
  rw [lastConsent, List.findSome?_cons, hevent]
  rfl

/-- The last page was shown at some time, so that it is an event of the history. -/
theorem mem_of_lastConsent {history : List Event} {requestId connectionId : Id}
    {shown : List McpScope} (h : lastConsent history requestId connectionId = some shown) :
    .consentShown requestId connectionId shown ∈ history := by
  obtain ⟨event, hevent, hshown⟩ := List.exists_of_findSome?_eq_some h
  cases event with
  | consentShown request connection scopes =>
      simp only [Event.consentFor] at hshown
      split at hshown
      · rename_i hsame
        obtain ⟨rfl, rfl⟩ := hsame
        exact Option.some.inj hshown ▸ hevent
      · cases hshown
  | _ => cases hshown

/-- When the code was issued, its user had last been shown all of these permissions. -/
def Consented (history : List Event) (codeId : Id) (scopes : List McpScope) : Prop :=
  ∃ newer issued older shown, history = newer ++ .codeIssued issued :: older ∧
    issued.id = codeId ∧
    lastConsent older issued.requestId issued.connectionId = some shown ∧
    ∀ scope ∈ scopes, scope ∈ shown

/-- A consent once given is not lost as the history goes on. -/
theorem Consented.append {history : List Event} {codeId : Id} {scopes : List McpScope}
    (h : Consented history codeId scopes) (events : List Event) :
    Consented (events ++ history) codeId scopes := by
  obtain ⟨newer, issued, older, shown, rfl, hrest⟩ := h
  exact ⟨events ++ newer, issued, older, shown, (List.append_assoc _ _ _).symm, hrest⟩

/-- Who consents to much consents to less. -/
theorem Consented.subset {history : List Event} {codeId : Id} {wide narrow : List McpScope}
    (h : Consented history codeId wide) (hsubset : ∀ scope ∈ narrow, scope ∈ wide) :
    Consented history codeId narrow := by
  obtain ⟨newer, issued, older, shown, hhistory, hid, hshown, hscopes⟩ := h
  exact ⟨newer, issued, older, shown, hhistory, hid, hshown,
    fun scope hscope => hscopes scope (hsubset scope hscope)⟩

/-- The grant came of a code to whose permissions the user had consented. -/
def GrantConsented (history : List Event) (grantId : Id) (scopes : List McpScope) : Prop :=
  ∃ grant code codeVerifier, .grantIssued grant code codeVerifier ∈ history ∧
    grant.id = grantId ∧ Consented history code.id scopes

/-- The consent behind a grant is not lost as the history goes on. -/
theorem GrantConsented.append {history : List Event} {grantId : Id}
    {scopes : List McpScope} (h : GrantConsented history grantId scopes)
    (events : List Event) : GrantConsented (events ++ history) grantId scopes := by
  obtain ⟨grant, code, codeVerifier, hgrant, hid, hconsented⟩ := h
  exact ⟨grant, code, codeVerifier, List.mem_append_right _ hgrant, hid,
    hconsented.append events⟩

/-- A grant's tokens may carry less than was consented to. -/
theorem GrantConsented.subset {history : List Event} {grantId : Id}
    {wide narrow : List McpScope} (h : GrantConsented history grantId wide)
    (hsubset : ∀ scope ∈ narrow, scope ∈ wide) : GrantConsented history grantId narrow := by
  obtain ⟨grant, code, codeVerifier, hgrant, hid, hconsented⟩ := h
  exact ⟨grant, code, codeVerifier, hgrant, hid, hconsented.subset hsubset⟩

namespace Server

variable {mandate : Mandate} {s t : Server}

/-- The last consent page of a request covers what a decision on it would grant now: every
permission that the connection would get through the request was on that page. -/
structure RequestConsented (s : Server) (request : AuthorizationRequestRow)
    (connectionId : Id) : Prop where
  drawn : connectionId < s.nextId
  shown : ∃ shown, lastConsent s.history request.id connectionId = some shown ∧
    ∀ connection ∈ s.connections, connection.id = connectionId →
      ∀ scope ∈ grantedScopes request connection.scopes, scope ∈ shown

/-- Everything in the tables that carries permissions was consented to: open transactions,
codes, grants and access tokens, each by the page of the request that it came from. -/
structure TablesConsented (s : Server) : Prop where
  /-- A transaction that is still open to a decision. -/
  requests : ∀ row ∈ s.requests, row.authenticatedAt ≠ none → row.completedAt = none →
    row.expiresAt ≤ s.now ∨
      ∃ connectionId, row.connectionId = some connectionId ∧
        s.RequestConsented row connectionId
  codes : ∀ row ∈ s.codes, Consented s.history row.id row.scopes
  grants : ∀ row ∈ s.grants, GrantConsented s.history row.id row.scopes
  accessTokens : ∀ row ∈ s.accessTokens,
    GrantConsented s.history row.grantId row.scopes

/-- A permission is granted when it was asked for and the connection carries it. -/
theorem mem_grantedScopes {request : AuthorizationRequestRow} {scopes : List McpScope}
    {scope : McpScope} : scope ∈ grantedScopes request scopes ↔
      scope ∈ request.requestedScopes.getD MCP_SCOPES ∧ scope ∈ scopes := by
  simp [grantedScopes]

/-- Only what a transaction asks for counts for what it is granted. -/
theorem grantedScopes_congr {request other : AuthorizationRequestRow}
    (hrequested : request.requestedScopes = other.requestedScopes)
    (scopes : List McpScope) : grantedScopes request scopes = grantedScopes other scopes := by
  rw [grantedScopes, grantedScopes, hrequested]

/-- A step that evolves the tables shows no consent page. -/
theorem Evolves.lastConsent_eq (h : s.Evolves mandate t) (requestId connectionId : Id) :
    lastConsent t.history requestId connectionId =
      lastConsent s.history requestId connectionId := by
  obtain ⟨events, hhistory, hevents⟩ := h.history
  rw [hhistory]
  apply lastConsent_append
  intro event hevent
  obtain ⟨id, rfl, -⟩ := hevents event hevent
  rfl

/-- The last consent page of the request shows this permission. -/
def ShownOn (s : Server) (request : AuthorizationRequestRow) (connectionId : Id)
    (scope : McpScope) : Prop :=
  ∃ shown, lastConsent s.history request.id connectionId = some shown ∧ scope ∈ shown

/-- Whatever the mandate adds to the connection and the request asks for is on its page. -/
def Covers (s : Server) (mandate : Mandate) (request : AuthorizationRequestRow)
    (connectionId : Id) : Prop :=
  ∀ scope, mandate.widens connectionId scope →
    scope ∈ request.requestedScopes.getD MCP_SCOPES → s.ShownOn request connectionId scope

/-- Consent outlasts every step that adds only what its page shows. Permissions may be taken
away at any time; adding one needs a new page. -/
theorem RequestConsented.evolves {request : AuthorizationRequestRow} {connectionId : Id}
    (hconsented : s.RequestConsented request connectionId) (h : s.Evolves mandate t)
    (hcovers : s.Covers mandate request connectionId) :
    t.RequestConsented request connectionId where
  drawn := Nat.lt_of_lt_of_le hconsented.drawn h.nextId_le
  shown := by
    obtain ⟨shown, hshown, hscopes⟩ := hconsented.shown
    refine ⟨shown, (h.lastConsent_eq _ _).trans hshown, ?_⟩
    intro connection hconnection hid scope hscope
    obtain ⟨hrequested, hallowed⟩ := mem_grantedScopes.mp hscope
    rcases h.connections connection hconnection with ⟨old, hold, hgoesOn⟩ | hnew
    · rcases hgoesOn.2.2 scope hallowed with hbefore | hwidens
      · exact hscopes old hold (hgoesOn.1.symm.trans hid) scope
          (mem_grantedScopes.mpr ⟨hrequested, hbefore⟩)
      · obtain ⟨page, hpage, hmem⟩ := hcovers scope (hid ▸ hwidens) hrequested
        rw [hshown] at hpage
        exact Option.some.inj hpage ▸ hmem
    · rw [hid] at hnew
      exact absurd hconsented.drawn (Nat.not_lt.mpr hnew.1)

/-- The whole invariant outlasts such a step, if what it widens was on the page of every
transaction that waits for a decision. -/
theorem TablesConsented.evolves (hs : s.TablesConsented) (h : s.Evolves mandate t)
    (hcovers : ∀ row connectionId, s.Awaiting row → row.connectionId = some connectionId →
      s.Covers mandate row connectionId) : t.TablesConsented := by
  obtain ⟨events, hhistory, -⟩ := h.history
  exact
    { requests := by
        intro row hrow hauthenticated hincomplete
        rcases h.requests row hrow with ⟨old, hold, hgoesOn⟩ | hnew
        · have hopen : old.completedAt = none := by
            by_contra hcompleted
            exact hgoesOn.2 hcompleted hincomplete
          rw [hgoesOn.1] at hauthenticated ⊢
          rcases hs.requests old hold hauthenticated hopen with
            hexpired | ⟨connectionId, hconnection, hconsented⟩
          · exact Or.inl (Nat.le_trans hexpired h.now_le)
          · by_cases hexpired : old.expiresAt ≤ s.now
            · exact Or.inl (Nat.le_trans hexpired h.now_le)
            · have hawaiting : s.Awaiting old :=
                ⟨hold, hauthenticated, hopen, Nat.lt_of_not_le hexpired⟩
              obtain ⟨hdrawn, hshown⟩ := hconsented.evolves h
                (hcovers old connectionId hawaiting hconnection)
              exact Or.inr ⟨connectionId, hconnection, ⟨hdrawn, hshown⟩⟩
        · exact absurd hnew.2 hauthenticated
      codes := by
        intro row hrow
        rcases h.codes row hrow with ⟨old, hold, hgoesOn⟩ | hfalse
        · rw [hgoesOn.1, hhistory]
          exact (hs.codes old hold).append events
        · exact hfalse.elim
      grants := by
        intro row hrow
        rcases h.grants row hrow with ⟨old, hold, hgoesOn⟩ | hfalse
        · rw [hgoesOn.1, hhistory]
          exact (hs.grants old hold).append events
        · exact hfalse.elim
      accessTokens := by
        intro row hrow
        rw [hhistory]
        rcases h.accessTokens row hrow with ⟨old, hold, hgoesOn⟩ | ⟨grant, hgrant, hof⟩
        · rw [hgoesOn]
          exact (hs.accessTokens old hold).append events
        · rw [hof.1]
          exact ((hs.grants grant hgrant).subset hof.2.2.2).append events }

/-- A step that touches no table of the authorization chain and shows nothing: connections and
requests stay, and none of the new events is a consent page. -/
structure Unconsenting (s t : Server) (events : List Event) : Prop where
  now_eq : t.now = s.now
  nextId_le : s.nextId ≤ t.nextId
  connections : t.connections = s.connections
  requests : t.requests = s.requests
  history : t.history = events ++ s.history
  events_unconsenting : ∀ event ∈ events, ∀ requestId connectionId,
    event.consentFor requestId connectionId = none

/-- Consent outlasts a step whose events are no consent pages. -/
theorem RequestConsented.unconsenting {events : List Event}
    {request : AuthorizationRequestRow} {connectionId : Id}
    (hconsented : s.RequestConsented request connectionId)
    (h : s.Unconsenting t events) : t.RequestConsented request connectionId where
  drawn := Nat.lt_of_lt_of_le hconsented.drawn h.nextId_le
  shown := by
    rw [h.history, h.connections,
      lastConsent_append _ fun event hevent => h.events_unconsenting event hevent _ _]
    exact hconsented.shown

/-- The invariant outlasts such a step when its new codes and grants are covered by the
history. -/
theorem TablesConsented.unconsenting {events : List Event} (hs : s.TablesConsented)
    (h : s.Unconsenting t events)
    (hcodes : ∀ row ∈ t.codes, row ∈ s.codes ∨ Consented t.history row.id row.scopes)
    (hgrants : ∀ row ∈ t.grants, row ∈ s.grants ∨
      GrantConsented t.history row.id row.scopes)
    (haccessTokens : t.accessTokens = s.accessTokens) : t.TablesConsented where
  requests := by
    intro row hrow hauthenticated hincomplete
    rw [h.requests] at hrow
    rw [h.now_eq]
    rcases hs.requests row hrow hauthenticated hincomplete with
      hexpired | ⟨connectionId, hconnection, hconsented⟩
    · exact Or.inl hexpired
    · exact Or.inr ⟨connectionId, hconnection, hconsented.unconsenting h⟩
  codes := by
    intro row hrow
    rcases hcodes row hrow with hold | hnew
    · rw [h.history]
      exact (hs.codes row hold).append events
    · exact hnew
  grants := by
    intro row hrow
    rcases hgrants row hrow with hold | hnew
    · rw [h.history]
      exact (hs.grants row hold).append events
    · exact hnew
  accessTokens := by
    intro row hrow
    rw [haccessTokens] at hrow
    rw [h.history]
    exact (hs.accessTokens row hrow).append events

/-- Issuing a code shows no page. -/
theorem unconsenting_issued (input : IssueCodeInput) :
    s.Unconsenting (s.issued input) [.codeIssued (s.codeRow input)] where
  now_eq := rfl
  nextId_le := Nat.le_add_right _ _
  connections := rfl
  requests := rfl
  history := rfl
  events_unconsenting := by
    intro event hevent requestId connectionId
    rw [List.mem_singleton.mp hevent]
    rfl

/-- The new code asks for no more than the last consent page of its request showed. -/
theorem TablesConsented.issued (hs : s.TablesConsented) {wait : DecideWait}
    {client : OAuthClientRow} {enrollment : EnrollmentRow} {connection : ConnectionRow}
    (happroval : s.Approval wait client enrollment connection)
    (hconsented : s.RequestConsented wait.request wait.connectionId) :
    (s.issued (issueInput wait client enrollment connection)).TablesConsented := by
  obtain ⟨hmem, hid⟩ := findConnection_mem happroval.connection_found
  obtain ⟨shown, hshown, hscopes⟩ := hconsented.shown
  apply hs.unconsenting (unconsenting_issued _) _ _ rfl
  · intro row hrow
    rcases List.mem_append.mp hrow with hold | hnew
    · exact Or.inl hold
    · rw [List.mem_singleton.mp hnew]
      refine Or.inr ⟨[], _, s.history, shown, rfl, rfl, ?_, hscopes connection hmem hid⟩
      rw [← hshown, ← hid]
      rfl
  · exact fun row hrow => Or.inl hrow

/-- Storing a grant shows no page. -/
theorem unconsenting_storeGrant (client : OAuthClientRow) (code : AuthorizationCodeRow)
    (scopes : List McpScope) (codeVerifier : String) :
    s.Unconsenting (s.storeGrant client code scopes codeVerifier)
      [.grantIssued (s.grantRow client code scopes) code codeVerifier] where
  now_eq := rfl
  nextId_le := Nat.le_succ _
  connections := rfl
  requests := rfl
  history := rfl
  events_unconsenting := by
    intro event hevent requestId connectionId
    rw [List.mem_singleton.mp hevent]
    rfl

/-- A grant keeps within the consent behind its code, as its permissions are taken from the
code. -/
theorem TablesConsented.storeGrant (hs : s.TablesConsented) (client : OAuthClientRow)
    {code : AuthorizationCodeRow} {scopes : List McpScope} (codeVerifier : String)
    (hconsented : Consented s.history code.id code.scopes)
    (hscopes : ∀ scope ∈ scopes, scope ∈ code.scopes) :
    (s.storeGrant client code scopes codeVerifier).TablesConsented := by
  apply hs.unconsenting (unconsenting_storeGrant client code scopes codeVerifier) _ _ rfl
  · intro row hrow
    obtain ⟨old, hold, hrow⟩ := exists_of_mem_updateWhere hrow
    have hold : Consented s.history old.id old.scopes := hs.codes old hold
    refine Or.inr ?_
    rw [hrow]
    split
    · exact hold.append [_]
    · exact hold.append [_]
  · intro row hrow
    rcases List.mem_append.mp hrow with hold | hnew
    · exact Or.inl hold
    · rw [List.mem_singleton.mp hnew]
      refine Or.inr ⟨_, code, codeVerifier, List.mem_cons_self, rfl, ?_⟩
      exact (hconsented.subset hscopes).append [_]

theorem unconsenting_resetEnrollment (enrollmentId : Id) (passwordHash : Secret)
    (expiresAt : Time) :
    ∃ events, s.Unconsenting (s.resetEnrollment enrollmentId passwordHash expiresAt)
      events := by
  rw [resetEnrollment]
  cases s.findEnrollmentById enrollmentId with
  | none => exact ⟨[], rfl, Nat.le_refl _, rfl, rfl, rfl, by simp⟩
  | some row =>
      exact ⟨[.enrollmentReset enrollmentId row.connectionId], rfl, Nat.le_refl _, rfl, rfl,
        rfl, by simp [Event.consentFor]⟩

theorem unconsenting_noted (s : Server) (operation : IssueOperation) (connectionId : Id) :
    ∃ events, s.Unconsenting (s.noted operation connectionId) events := by
  cases operation with
  | create => exact ⟨[], rfl, Nat.le_refl _, rfl, rfl, rfl, by simp⟩
  | reissue => exact ⟨[], rfl, Nat.le_refl _, rfl, rfl, rfl, by simp⟩
  | rotate =>
      exact ⟨[.rotated connectionId], rfl, Nat.le_refl _, rfl, rfl, rfl,
        by simp [Event.consentFor]⟩

theorem Unconsenting.trans {u : Server} {events events' : List Event}
    (hfirst : s.Unconsenting t events) (hsecond : t.Unconsenting u events') :
    s.Unconsenting u (events' ++ events) where
  now_eq := hsecond.now_eq.trans hfirst.now_eq
  nextId_le := Nat.le_trans hfirst.nextId_le hsecond.nextId_le
  connections := hsecond.connections.trans hfirst.connections
  requests := hsecond.requests.trans hfirst.requests
  history := by rw [hsecond.history, hfirst.history, List.append_assoc]
  events_unconsenting := by
    intro event hevent
    rcases List.mem_append.mp hevent with hevent | hevent
    · exact hsecond.events_unconsenting event hevent
    · exact hfirst.events_unconsenting event hevent

theorem unconsenting_storeEnrollment (connectionId : Id) (username : Nat)
    (passwordHash : Secret) (expiresAt : Time) :
    s.Unconsenting (s.storeEnrollment connectionId username passwordHash expiresAt)
      [.enrollmentIssued s.nextId connectionId] where
  now_eq := rfl
  nextId_le := Nat.le_succ _
  connections := rfl
  requests := rfl
  history := rfl
  events_unconsenting := by simp [Event.consentFor]

/-- Storing a setup password shows nothing and leaves codes, grants and tokens alone. -/
theorem unconsenting_finishHash (s : Server) (operation : IssueOperation)
    (pending : PendingIssue)
    (hoperation : pending.newUsername = true ↔ operation ≠ .reissue) :
    (∃ events, s.Unconsenting (s.finishHash operation pending) events) ∧
      (s.finishHash operation pending).codes = s.codes ∧
      (s.finishHash operation pending).grants = s.grants ∧
      (s.finishHash operation pending).accessTokens = s.accessTokens := by
  rcases finishHash_cases operation pending hoperation with
    heq | ⟨previous, -, -, heq⟩ | ⟨-, heq⟩
  · rw [heq]
    exact ⟨⟨[], rfl, Nat.le_refl _, rfl, rfl, rfl, by simp⟩, rfl, rfl, rfl⟩
  · rw [heq]
    refine ⟨unconsenting_resetEnrollment _ _ _, ?_⟩
    obtain ⟨history, hreset⟩ := resetEnrollment_kept s previous.id pending.setupPassword
      (s.setupExpiry pending)
    rw [hreset]
    exact ⟨rfl, rfl, rfl⟩
  · rw [heq]
    obtain ⟨events, hnoted⟩ := unconsenting_noted s operation pending.connectionId
    refine ⟨⟨_, hnoted.trans (unconsenting_storeEnrollment _ _ _ _)⟩, ?_⟩
    cases operation <;> exact ⟨rfl, rfl, rfl⟩

/-- A step that shows these permissions for a request and marks its transaction: one consent
page is added to the history, and the request is tied to the connection it was shown for. -/
structure Consenting (s t : Server) (request : AuthorizationRequestRow)
    (connectionId enrollmentId : Id) (scopes : List McpScope) : Prop where
  now_eq : t.now = s.now
  nextId_eq : t.nextId = s.nextId
  connections : t.connections = s.connections
  codes : t.codes = s.codes
  grants : t.grants = s.grants
  accessTokens : t.accessTokens = s.accessTokens
  requests : t.requests = updateWhere s.requests (openRequest request.id) fun row =>
    { row with
      connectionId := some connectionId
      enrollmentId := some enrollmentId
      authenticatedAt := some s.now }
  history : ∃ events, t.history =
      events ++ .consentShown request.id connectionId scopes :: s.history ∧
    ∀ event ∈ events, ∀ requestId connectionId,
      event.consentFor requestId connectionId = none

theorem consenting_showConsent (s : Server) (request : AuthorizationRequestRow)
    (connectionId enrollmentId : Id) (scopes : List McpScope) :
    s.Consenting (s.showConsent request.id connectionId enrollmentId scopes) request
      connectionId enrollmentId scopes := by
  have hrequests := showConsent_requests s request.id connectionId enrollmentId scopes
  have hhistory := showConsent_history s request.id connectionId enrollmentId scopes
  obtain ⟨requests, history, heq⟩ :=
    showConsent_kept s request.id connectionId enrollmentId scopes
  rw [heq] at hrequests hhistory ⊢
  refine ⟨rfl, rfl, rfl, rfl, rfl, rfl, hrequests, _, hhistory, ?_⟩
  intro event hevent
  split at hevent
  · rw [List.mem_singleton.mp hevent]
    exact fun _ _ => rfl
  · cases hevent

theorem Consenting.lastConsent_eq {request : AuthorizationRequestRow}
    {connectionId enrollmentId : Id} {scopes : List McpScope}
    (h : s.Consenting t request connectionId enrollmentId scopes) (wantedId otherId : Id) :
    lastConsent t.history wantedId otherId =
      if request.id = wantedId ∧ connectionId = otherId then some scopes
      else lastConsent s.history wantedId otherId := by
  obtain ⟨events, hhistory, hevents⟩ := h.history
  rw [hhistory, lastConsent_append _ fun event hevent => hevents event hevent wantedId otherId]
  by_cases hsame : request.id = wantedId ∧ connectionId = otherId
  · simp [lastConsent, Event.consentFor, hsame]
  · rw [if_neg hsame]
    exact lastConsent_cons _ (if_neg hsame)

/-- Consent outlasts the consent pages of other requests, and a new page is one. -/
theorem RequestConsented.consenting (hwellFormed : s.WellFormed)
    {request wanted : AuthorizationRequestRow} {connection : ConnectionRow}
    {enrollmentId connectionId : Id}
    (h : s.Consenting t request connection.id enrollmentId
      (grantedScopes request connection.scopes))
    (hmem : connection ∈ s.connections)
    (hagree : wanted.id = request.id → wanted.requestedScopes = request.requestedScopes)
    (hconsented : (request.id = wanted.id ∧ connection.id = connectionId) ∨
      s.RequestConsented wanted connectionId) : t.RequestConsented wanted connectionId := by
  have hlast := h.lastConsent_eq wanted.id connectionId
  by_cases hsame : request.id = wanted.id ∧ connection.id = connectionId
  · rw [if_pos hsame] at hlast
    refine ⟨?_, _, hlast, ?_⟩
    · rw [h.nextId_eq, ← hsame.2]
      exact hwellFormed.connection_lt connection hmem
    · intro row hrow hid scope hscope
      rw [h.connections] at hrow
      have hrow : row = connection :=
        eq_of_key_eq hwellFormed.connection_nodup hrow hmem (hid.trans hsame.2.symm)
      rw [hrow, grantedScopes_congr (hagree hsame.1.symm)] at hscope
      exact hscope
  · obtain ⟨hdrawn, shown, hshown, hscopes⟩ := hconsented.resolve_left hsame
    rw [if_neg hsame] at hlast
    refine ⟨h.nextId_eq.symm ▸ hdrawn, shown, hlast.trans hshown, ?_⟩
    rw [h.connections]
    exact hscopes

/-- Signing in consents for the transaction it marks, and for no other: the page that is shown
is the last one of this transaction. -/
theorem TablesConsented.consenting (hwellFormed : s.WellFormed) (hs : s.TablesConsented)
    {request : AuthorizationRequestRow} {connection : ConnectionRow} {enrollmentId : Id}
    (h : s.Consenting t request connection.id enrollmentId
      (grantedScopes request connection.scopes))
    (hmem : connection ∈ s.connections)
    (hagree : ∀ row ∈ s.requests, row.id = request.id →
      row.requestedScopes = request.requestedScopes) : t.TablesConsented := by
  obtain ⟨events, hhistory⟩ : ∃ events, t.history = events ++ s.history := by
    obtain ⟨events, hhistory, -⟩ := h.history
    exact ⟨events ++ [_], hhistory.trans (List.append_cons _ _ _)⟩
  exact
    { requests := by
        intro row hrow hauthenticated hincomplete
        rw [h.requests] at hrow
        rw [h.now_eq]
        rcases mem_updateWhere.mp hrow with ⟨hold, -⟩ | ⟨old, hold, hopen, rfl⟩
        · rcases hs.requests row hold hauthenticated hincomplete with
            hexpired | ⟨connectionId, hconnection, hconsented⟩
          · exact Or.inl hexpired
          · exact Or.inr ⟨connectionId, hconnection, RequestConsented.consenting
              hwellFormed h hmem (hagree row hold) (Or.inr hconsented)⟩
        · have hid : old.id = request.id := by
            simp only [openRequest, decide_eq_true_eq] at hopen
            exact hopen.1
          refine Or.inr ⟨connection.id, rfl, ?_⟩
          exact RequestConsented.consenting hwellFormed h hmem (hagree old hold)
            (Or.inl ⟨hid.symm, rfl⟩)
      codes := by
        rw [h.codes, hhistory]
        exact fun row hrow => (hs.codes row hrow).append events
      grants := by
        rw [h.grants, hhistory]
        exact fun row hrow => (hs.grants row hrow).append events
      accessTokens := by
        rw [h.accessTokens, hhistory]
        exact fun row hrow => (hs.accessTokens row hrow).append events }

/- What the verifier has checked -/

/-- What holds of a presented token, its grant, the connection and its mailbox when a bearer
request is accepted. Each field is one check of the code, said of the rows that were found. -/
structure Accepted (s : Server) (connectionId : List Char) (presented : Secret)
    (context : McpAuthContext) (connection : ConnectionRow) (token : AccessTokenRow)
    (grant : GrantRow) (binding : BindingRow) : Prop where
  token_mem : token ∈ s.accessTokens
  token_hash : token.tokenHash = presented
  token_unrevoked : token.revokedAt = none
  token_unexpired : s.now < token.expiresAt
  token_connection : token.connectionId = connection.id
  token_resource : ∃ base, s.settings.publicBaseUrl = some base ∧
    token.resource = resourceFor base connection.id
  grant_mem : grant ∈ s.grants
  grant_id : grant.id = token.grantId
  grant_live : grant.revokedAt = none
  grant_connection : grant.connectionId = connection.id
  connection_mem : connection ∈ s.connections
  connection_path : connectionIdText connection.id = connectionId
  connection_active : (s.statusOf connection binding).1 = .active
  binding_mem : binding ∈ s.bindings
  binding_id : binding.id = connection.bindingId
  binding_active : binding.state = .active
  credential : ∃ credential ∈ s.credentials, credential.bindingId = binding.id ∧
    s.vaultKeyId = some credential.keyId
  context_connection : context.connectionId = connection.id
  context_grant : context.grantId = grant.id
  scopes_minted : ∀ scope ∈ context.scopes, scope ∈ token.scopes
  scopes_allowed : ∀ scope ∈ context.scopes, scope ∈ connection.scopes

theorem credentialHealth_healthy {binding : BindingRow}
    (hhealthy : s.credentialHealth binding = .healthy) :
    binding.state = .active ∧ ∃ credential ∈ s.credentials,
      credential.bindingId = binding.id ∧ s.vaultKeyId = some credential.keyId := by
  rw [credentialHealth] at hhealthy
  split at hhealthy
  · cases hhealthy
  · cases hhealthy
  · cases hhealthy
  · cases hhealthy
  · rename_i hactive
    split at hhealthy
    · cases hhealthy
    · rename_i credential hfind
      split at hhealthy
      · rename_i hkey
        exact ⟨hactive, credential, mem_of_lookup hfind, key_of_lookup hfind, hkey⟩
      · cases hhealthy

/-- An active connection has a mailbox credential that the vault can open. -/
theorem statusOf_active {connection : ConnectionRow} {binding : BindingRow}
    (hactive : (s.statusOf connection binding).1 = .active) :
    s.credentialHealth binding = .healthy := by
  by_contra hunhealthy
  simp only [statusOf] at hactive
  repeat' split at hactive
  all_goals cases hactive

theorem tokenRefusal_none {base : String} {connection : ConnectionRow}
    {token : AccessTokenRow} (haccepted : s.tokenRefusal base connection token = none) :
    token.revokedAt = none ∧ s.now < token.expiresAt ∧ token.connectionId = connection.id ∧
      token.resource = resourceFor base connection.id := by
  rw [tokenRefusal] at haccepted
  split at haccepted
  · cases haccepted
  · rename_i hlive
    split at haccepted
    · cases haccepted
    · rename_i hconnection
      split at haccepted
      · cases haccepted
      · rename_i hresource
        rw [not_or, Decidable.not_not, Nat.not_le] at hlive
        exact ⟨hlive.1, hlive.2, Decidable.not_not.mp hconnection,
          Decidable.not_not.mp hresource⟩

theorem verifyGranted_ok {connection : ConnectionRow} {token : AccessTokenRow}
    {grant : GrantRow} {context : McpAuthContext}
    (hverify : (s.verifyGranted connection token grant).1 = .ok context) :
    ∃ binding, s.findBinding connection.bindingId = some binding ∧
      (s.statusOf connection binding).1 = .active ∧ context.connectionId = connection.id ∧
      context.grantId = grant.id ∧ ∀ scope ∈ context.scopes,
        scope ∈ token.scopes ∧ scope ∈ connection.scopes := by
  simp only [verifyGranted] at hverify
  split at hverify
  · cases hverify
  · rename_i binding hbinding
    split at hverify
    · cases hverify
    · rename_i hactive
      have hcontext : ∀ scope ∈ (token.scopes.filter fun scope =>
          scope ∈ connection.scopes ∧ scope ∈ s.availableCapabilities),
            scope ∈ token.scopes ∧ scope ∈ connection.scopes := by
        intro scope hscope
        simp only [List.mem_filter, decide_eq_true_eq] at hscope
        exact ⟨hscope.1, hscope.2.1⟩
      refine ⟨binding, hbinding, Decidable.not_not.mp hactive, ?_⟩
      split at hverify
      · cases hverify
      · split at hverify
        · cases hverify
          exact ⟨rfl, rfl, hcontext⟩
        · cases hverify
          exact ⟨rfl, rfl, hcontext⟩

theorem liveGrant_eq_some {connection : ConnectionRow} {token : AccessTokenRow}
    {grant : GrantRow} (hlive : s.liveGrant connection token = some grant) :
    grant ∈ s.grants ∧ grant.id = token.grantId ∧ grant.revokedAt = none ∧
      grant.connectionId = connection.id := by
  obtain ⟨hfind, hgrant⟩ := Option.filter_eq_some_iff.mp hlive
  simp only [decide_eq_true_eq] at hgrant
  exact ⟨mem_of_lookup hfind, key_of_lookup hfind, hgrant⟩

theorem findConnectionByText_mem {text : List Char} {connection : ConnectionRow}
    (hfind : s.findConnectionByText text = some connection) :
    connection ∈ s.connections ∧ connectionIdText connection.id = text :=
  ⟨List.mem_of_find?_eq_some hfind, by simpa using List.find?_some hfind⟩

/-- The verifier accepts only after all of its checks. It is the inversion that every claim
about accepted requests goes by. -/
theorem verify_ok {connectionId : List Char} {authorization : BearerHeader}
    {context : McpAuthContext} (hverify : (s.verify connectionId authorization).1 = .ok context) :
    ∃ presented, authorization = .token presented ∧ ∃ connection token grant binding,
      s.Accepted connectionId presented context connection token grant binding := by
  simp only [verify] at hverify
  split at hverify
  · rename_i base _ hbase
    split at hverify
    · cases hverify
    · split at hverify
      · cases hverify
      · rename_i connection hconnection
        split at hverify
        · cases hverify
        · split at hverify
          · cases hverify
          · cases hverify
          · rename_i presented
            split at hverify
            · cases hverify
            · rename_i token htoken
              split at hverify
              · cases hverify
              · rename_i haccepted
                split at hverify
                · cases hverify
                · rename_i grant hgrant
                  obtain ⟨hmem, hpath⟩ := findConnectionByText_mem hconnection
                  obtain ⟨hunrevoked, hunexpired, htokenConnection, hresource⟩ :=
                    tokenRefusal_none haccepted
                  obtain ⟨hgrantMem, hgrantId, hlive, hgrantConnection⟩ :=
                    liveGrant_eq_some hgrant
                  obtain ⟨binding, hbinding, hactive, hcontextConnection, hcontextGrant,
                    hscopes⟩ := verifyGranted_ok hverify
                  obtain ⟨hbindingActive, hcredential⟩ :=
                    credentialHealth_healthy (statusOf_active hactive)
                  exact ⟨presented, rfl, connection, token, grant, binding,
                    { token_mem := mem_of_lookup htoken
                      token_hash := key_of_lookup htoken
                      token_unrevoked := hunrevoked
                      token_unexpired := hunexpired
                      token_connection := htokenConnection
                      token_resource := ⟨base, hbase, hresource⟩
                      grant_mem := hgrantMem
                      grant_id := hgrantId
                      grant_live := hlive
                      grant_connection := hgrantConnection
                      connection_mem := hmem
                      connection_path := hpath
                      connection_active := hactive
                      binding_mem := mem_of_lookup hbinding
                      binding_id := key_of_lookup hbinding
                      binding_active := hbindingActive
                      credential := hcredential
                      context_connection := hcontextConnection
                      context_grant := hcontextGrant
                      scopes_minted := fun scope hscope => (hscopes scope hscope).1
                      scopes_allowed := fun scope hscope => (hscopes scope hscope).2 }⟩
  · cases hverify

theorem covers_none (request : AuthorizationRequestRow) (connectionId : Id) :
    s.Covers Mandate.none request connectionId :=
  fun _ hwidens => hwidens.elim

end Server

namespace System

variable {env : Env} {system next : System} {label : Label}

/-- The request is a transaction in the table, or a task holds it. -/
def Known (system : System) (request : AuthorizationRequestRow) : Prop :=
  request ∈ system.server.requests ∨
    ∃ task ∈ system.tasks, task.held = .login request ∨
      ∃ wait, task.held = .decide wait ∧ wait.request = request

/-- A decision on the request can still approve it for the connection. -/
def OpenTo (system : System) (request : AuthorizationRequestRow) (connectionId : Id) :
    Prop :=
  (system.server.Awaiting request ∧ request.connectionId = some connectionId) ∨
    ∃ task ∈ system.tasks, ∃ wait, task.held = .decide wait ∧ wait.request = request ∧
      wait.connectionId = connectionId ∧ wait.decision = some "approve"

/-- The step adds no permission to a connection that a request still open to it asks for
and whose last consent page does not show it. -/
def WidensAsShown (system : System) (label : Label) : Prop :=
  ∀ request connectionId, system.OpenTo request connectionId →
    system.server.Covers (system.server.mandateOf label) request connectionId

/-- Consent is on record for every code, grant and token, and for every request that a
decision can still approve. -/
structure Consent (system : System) : Prop where
  tables : system.server.TablesConsented
  known_lt : ∀ request, system.Known request → request.id < system.server.nextId
  known_agree : ∀ left right, system.Known left → system.Known right →
    left.id = right.id → left.requestedScopes = right.requestedScopes
  decides : ∀ task ∈ system.tasks, ∀ wait, task.held = .decide wait →
    wait.decision = some "approve" →
      system.server.RequestConsented wait.request wait.connectionId

/-- Transactions keep what they ask for, and a new one has a new id. What a client may ask for
is fixed when the browser first comes. -/
theorem Stepped.requests (hsystem : system.Sound) (hstep : Stepped env system label next) :
    system.server.nextId ≤ next.server.nextId ∧
      Continues (fun old row : AuthorizationRequestRow =>
          row.id = old.id ∧ row.requestedScopes = old.requestedScopes)
        (fun row => system.server.nextId ≤ row.id)
        system.server.requests next.server.requests := by
  have hrequests : ∀ {mandate server next}, Server.Evolves mandate server next →
      Continues (fun old row : AuthorizationRequestRow =>
          row.id = old.id ∧ row.requestedScopes = old.requestedScopes)
        (fun row => server.nextId ≤ row.id) server.requests next.requests := by
    intro mandate server next hevolves
    apply hevolves.requests.mono
    · intro old row hgoesOn
      rw [hgoesOn.1]
      exact ⟨rfl, rfl⟩
    · exact fun row hnew => hnew.1.1
  have hsame : Continues (fun old row : AuthorizationRequestRow =>
        row.id = old.id ∧ row.requestedScopes = old.requestedScopes)
      (fun row => system.server.nextId ≤ row.id)
      system.server.requests system.server.requests :=
    Continues.refl (fun _ => ⟨rfl, rfl⟩) _
  cases hstep with
  | evolved hevolves _ => exact ⟨hevolves.nextId_le, hrequests hevolves⟩
  | @signedIn _ wait enrollment connection =>
      have hconsenting := Server.consenting_showConsent
        (system.server.recordAttempt wait.ip wait.form.username true) wait.request
        connection.id enrollment.id (grantedScopes wait.request connection.scopes)
      refine ⟨Nat.le_of_eq hconsenting.nextId_eq.symm, ?_⟩
      dsimp only
      rw [hconsenting.requests]
      exact Continues.updateWhere (fun _ => ⟨rfl, rfl⟩) fun _ _ _ => ⟨rfl, rfl⟩
  | approved _ _ hevolves _ =>
      refine ⟨Nat.le_trans (Nat.le_add_right _ 2) hevolves.nextId_le, ?_⟩
      exact (hrequests hevolves).mono (fun _ _ h => h)
        fun row hnew => Nat.le_trans (Nat.le_add_right _ 2) hnew
  | @redeemed _ _ _ _ _ client code codeVerifier scopes =>
      have hevolves : Server.Evolves Mandate.none _
          ((system.server.redeemed code).grantCode client code scopes codeVerifier).2 :=
        Server.evolves_grantCode client code scopes codeVerifier
      refine ⟨Nat.le_trans (Nat.le_succ _) hevolves.nextId_le, ?_⟩
      exact (hrequests hevolves).mono (fun _ _ h => h)
        fun row hnew => Nat.le_trans (Nat.le_succ _) hnew
  | @hashed _ operation pending _ htask =>
      obtain ⟨⟨events, hstored⟩, -⟩ := Server.unconsenting_finishHash system.server operation
        pending (hsystem.newUsername _ (List.mem_of_getElem? htask) operation pending rfl)
      refine ⟨hstored.nextId_le, ?_⟩
      dsimp only
      rw [hstored.requests]
      exact hsame

/-- What is known after a step was known before, or is new in the table. Waiting tasks know
transactions too, as they were when the task began. -/
theorem Stepped.known (hsystem : system.Sound) (hstep : Stepped env system label next)
    {request : AuthorizationRequestRow} (hknown : next.Known request) :
    (∃ old, system.Known old ∧ request.id = old.id ∧
        request.requestedScopes = old.requestedScopes) ∨
      request ∈ next.server.requests ∧ system.server.nextId ≤ request.id := by
  have htable : ∀ request ∈ next.server.requests,
      (∃ old, system.Known old ∧ request.id = old.id ∧
        request.requestedScopes = old.requestedScopes) ∨
      request ∈ next.server.requests ∧ system.server.nextId ≤ request.id := by
    intro request hrow
    rcases (hstep.requests hsystem).2 request hrow with ⟨old, hold, hsame⟩ | hnew
    · exact Or.inl ⟨old, Or.inl hold, hsame⟩
    · exact Or.inr ⟨hrow, hnew⟩
  rcases hknown with hrow | ⟨task, htask, hheld⟩
  · exact htable request hrow
  · rcases hstep.tasksGoOn task htask with ⟨old, hold, hsame⟩ | hbegun
    · rw [hsame.1] at hheld
      exact Or.inl ⟨request, Or.inr ⟨old, hold, hheld⟩, rfl, rfl⟩
    · have hbegun := hbegun.1
      rcases hheld with hheld | ⟨wait, hheld, rfl⟩
      · rw [hheld] at hbegun
        have hloaded : next.server.Loaded request := hbegun
        exact htable request hloaded.mem
      · rw [hheld] at hbegun
        have hloaded : next.server.Loaded wait.request := hbegun.1
        exact htable wait.request hloaded.mem

/-- The consent on record for a request that stays open outlasts a step, as long as the step
widens no connection beyond what was shown. -/
theorem Consent.requestConsented (hsystem : system.Sound) (hconsent : system.Consent)
    (hstep : Stepped env system label next) {request : AuthorizationRequestRow}
    {connectionId : Id} (hknown : system.Known request)
    (hcovers : system.server.Covers (system.server.mandateOf label) request connectionId)
    (hconsented : system.server.RequestConsented request connectionId) :
    next.server.RequestConsented request connectionId := by
  cases hstep with
  | evolved hevolves _ => exact hconsented.evolves hevolves hcovers
  | @signedIn _ wait enrollment connection hheld _ hfind _ =>
      obtain ⟨task, htask, hlogin, -⟩ := hheld
      have hattempt : system.server.Evolves Mandate.none
          (system.server.recordAttempt wait.ip wait.form.username true) :=
        Server.evolves_recordAttempt _ _ _
      have hattempted := hconsented.evolves hattempt (Server.covers_none _ _)
      apply Server.RequestConsented.consenting (hsystem.server.evolves hattempt)
        (Server.consenting_showConsent _ _ _ _ _) (Server.findConnection_mem hfind).1
      · intro hid
        exact hconsent.known_agree _ _ hknown (Or.inr ⟨task, htask, Or.inl hlogin⟩) hid
      · exact Or.inr hattempted
  | approved _ _ hevolves _ =>
      exact (hconsented.unconsenting (Server.unconsenting_issued _)).evolves hevolves
        (Server.covers_none _ _)
  | @redeemed _ _ _ _ _ client code codeVerifier scopes =>
      have hredeemed : system.server.Evolves Mandate.none (system.server.redeemed code) :=
        Server.evolves_redeemed code
      have hgranted : Server.Evolves Mandate.none _
          ((system.server.redeemed code).grantCode client code scopes codeVerifier).2 :=
        Server.evolves_grantCode client code scopes codeVerifier
      exact ((hconsented.evolves hredeemed (Server.covers_none _ _)).unconsenting
        (Server.unconsenting_storeGrant _ _ _ _)).evolves hgranted (Server.covers_none _ _)
  | @hashed _ operation pending _ htask =>
      obtain ⟨⟨events, hstored⟩, -⟩ := Server.unconsenting_finishHash system.server operation
        pending (hsystem.newUsername _ (List.mem_of_getElem? htask) operation pending rfl)
      exact hconsented.unconsenting hstored

theorem Consent.tables_stepped (hsystem : system.Sound) (hconsent : system.Consent)
    (hwidens : system.WidensAsShown label) (hstep : Stepped env system label next) :
    next.server.TablesConsented := by
  have hs := hconsent.tables
  cases hstep with
  | evolved hevolves _ =>
      apply hs.evolves hevolves
      intro row connectionId hawaiting hconnection
      exact hwidens row connectionId (Or.inl ⟨hawaiting, hconnection⟩)
  | @signedIn _ wait enrollment connection hheld _ hfind _ =>
      obtain ⟨task, htask, hlogin, -⟩ := hheld
      have hattempt : system.server.Evolves Mandate.none
          (system.server.recordAttempt wait.ip wait.form.username true) :=
        Server.evolves_recordAttempt _ _ _
      apply (hs.evolves hattempt fun _ _ _ _ => Server.covers_none _ _).consenting
        (hsystem.server.evolves hattempt) (Server.consenting_showConsent _ _ _ _ _)
        (Server.findConnection_mem hfind).1
      intro row hrow hid
      exact hconsent.known_agree _ _ (Or.inl hrow)
        (Or.inr ⟨task, htask, Or.inl hlogin⟩) hid
  | @approved _ _ wait client enrollment connection hheld happroval hevolves _ =>
      obtain ⟨_, task, -, htask, hdecide⟩ := hheld
      exact (hs.issued happroval (hconsent.decides task (List.mem_of_getElem? htask) wait hdecide
        happroval.approved)).evolves hevolves fun _ _ _ _ => Server.covers_none _ _
  | @redeemed _ _ _ _ _ client code codeVerifier scopes _ _ hredemption _ =>
      have hredeemed : system.server.Evolves Mandate.none (system.server.redeemed code) :=
        Server.evolves_redeemed code
      have hgranted : Server.Evolves Mandate.none _
          ((system.server.redeemed code).grantCode client code scopes codeVerifier).2 :=
        Server.evolves_grantCode client code scopes codeVerifier
      have hconsented : Consented (system.server.redeemed code).history code.id code.scopes :=
        hs.codes code hredemption.mem
      exact ((hs.evolves hredeemed fun _ _ _ _ => Server.covers_none _ _).storeGrant client
        codeVerifier hconsented hredemption.scopes_subset).evolves hgranted
        fun _ _ _ _ => Server.covers_none _ _
  | @hashed _ operation pending _ htask =>
      obtain ⟨⟨events, hstored⟩, hcodes, hgrants, haccessTokens⟩ :=
        Server.unconsenting_finishHash system.server operation pending
          (hsystem.newUsername _ (List.mem_of_getElem? htask) operation pending rfl)
      apply hs.unconsenting hstored
      · exact fun row hrow => Or.inl (hcodes ▸ hrow)
      · exact fun row hrow => Or.inl (hgrants ▸ hrow)
      · exact haccessTokens

/-- The step lemma: consent is kept by every step that widens connections only as shown. The run
lemma is its induction over the labels. -/
theorem Consent.stepped (hsystem : system.Sound) (hconsent : system.Consent)
    (hwidens : system.WidensAsShown label) (hstep : Stepped env system label next) :
    next.Consent where
  tables := hconsent.tables_stepped hsystem hwidens hstep
  known_lt := by
    intro request hknown
    rcases hstep.known hsystem hknown with ⟨old, hold, hid, -⟩ | ⟨hrow, -⟩
    · rw [hid]
      exact Nat.lt_of_lt_of_le (hconsent.known_lt old hold) (hstep.requests hsystem).1
    · exact (hsystem.stepped hstep).server.request_lt request hrow
  known_agree := by
    intro left right hleft hright hid
    rcases hstep.known hsystem hleft with ⟨old, hold, hleftId, hleftScopes⟩ | ⟨hrow, hnew⟩
    · rcases hstep.known hsystem hright with
        ⟨other, hother, hrightId, hrightScopes⟩ | ⟨-, hnew⟩
      · rw [hleftScopes, hrightScopes]
        exact hconsent.known_agree old other hold hother
          (hleftId.symm.trans (hid.trans hrightId))
      · have hlt := hconsent.known_lt old hold
        rw [← hleftId, hid] at hlt
        exact absurd hlt (Nat.not_lt.mpr hnew)
    · rcases hstep.known hsystem hright with ⟨other, hother, hrightId, -⟩ | ⟨hrow', -⟩
      · have hlt := hconsent.known_lt other hother
        rw [← hrightId, ← hid] at hlt
        exact absurd hlt (Nat.not_lt.mpr hnew)
      · rw [eq_of_key_eq (hsystem.stepped hstep).server.request_nodup hrow hrow' hid]
  decides := by
    intro task htask wait hdecide happrove
    rcases hstep.tasksGoOn task htask with ⟨old, hold, hsame⟩ | hbegun
    · rw [hsame.1] at hdecide
      have hopen : system.OpenTo wait.request wait.connectionId :=
        Or.inr ⟨old, hold, wait, hdecide, rfl, rfl, happrove⟩
      exact hconsent.requestConsented hsystem hstep
        (Or.inr ⟨old, hold, Or.inr ⟨wait, hdecide, rfl⟩⟩) (hwidens _ _ hopen)
        (hconsent.decides old hold wait hdecide happrove)
    · have hbegun := hbegun.1
      rw [hdecide] at hbegun
      obtain ⟨hloaded, hsignedIn⟩ : next.server.Loaded wait.request ∧ wait.SignedIn := hbegun
      have htables := hconsent.tables_stepped hsystem hwidens hstep
      rcases htables.requests wait.request hloaded.mem hsignedIn.authenticated
        hloaded.incomplete with hexpired | ⟨connectionId, hconnection, hconsented⟩
      · exact absurd hloaded.unexpired (Nat.not_lt.mpr hexpired)
      · rw [hsignedIn.connection] at hconnection
        exact Option.some.inj hconnection ▸ hconsented

theorem Consent.initial (settings : McpSettings) (vaultKeyId : Option String) (now : Time) :
    (System.initial settings vaultKeyId now).Consent := by
  constructor
  · constructor <;> simp [System.initial, Server.initial]
  · simp [Known, System.initial, Server.initial]
  · simp [Known, System.initial, Server.initial]
  · simp [System.initial]

/-- The run lemma. -/
theorem Consent.run {settings : McpSettings} {vaultKeyId : Option String} {now : Time}
    {labels : List Label}
    (hwidens : StepRun.Meets (System.step env) WidensAsShown
      (System.initial settings vaultKeyId now) labels) :
    (System.run env (System.initial settings vaultKeyId now) labels).Consent := by
  have hrun := StepRun.invariant_of_meets (System.step env)
    (fun system => system.Sound ∧ system.Consent)
    (fun system label h hwidens => ⟨h.1.step label,
      h.2.stepped h.1 hwidens (step_stepped h.1.server label)⟩)
    ⟨Sound.initial settings vaultKeyId now, Consent.initial settings vaultKeyId now⟩ hwidens
  exact hrun.2

/-- What an accepted bearer request may rely on. -/
def BearerSound (system : System) (connectionId : List Char) (authorization : BearerHeader)
    (context : McpAuthContext) : Prop :=
  ∃ presented, authorization = .token presented ∧ ∃ connection token grant binding,
    system.server.Accepted connectionId presented context connection token grant binding ∧
      GrantConsented system.server.history grant.id context.scopes

/-- Over every run that adds permissions only as shown, whatever the verifier accepts is backed
by live rows and by the user's consent. The condition is about updates of a connection while a
transaction waits for its decision: the permissions are taken from the connection at the
decision, and the page was made before it. -/
theorem bearer_sound_of_widensAsShown {settings : McpSettings} {vaultKeyId : Option String}
    {now : Time} {labels : List Label}
    (hwidens : StepRun.Meets (System.step env) WidensAsShown
      (System.initial settings vaultKeyId now) labels)
    (connectionId : List Char) (authorization : BearerHeader) (context : McpAuthContext)
    (hverify : ((System.run env (System.initial settings vaultKeyId now) labels).server.verify
      connectionId authorization).1 = .ok context) :
    BearerSound (System.run env (System.initial settings vaultKeyId now) labels)
      connectionId authorization context := by
  obtain ⟨presented, heq, connection, token, grant, binding, haccepted⟩ :=
    Server.verify_ok hverify
  refine ⟨presented, heq, connection, token, grant, binding, haccepted, ?_⟩
  have hconsented := (Consent.run hwidens).tables.accessTokens token haccepted.token_mem
  rw [haccepted.grant_id]
  exact hconsented.subset haccepted.scopes_minted

theorem widensAsShown_of_not_update {label : Label}
    (hlabel : ∀ id fields, label ≠ .request (.update id fields)) (system : System) :
    system.WidensAsShown label := by
  intro request connectionId _ scope hwidens
  simp only [Server.mandateOf] at hwidens
  split at hwidens
  · exact hwidens.elim
  · exact hwidens.elim
  · exact hwidens.elim
  · exact absurd rfl (hlabel _ _)
  · exact hwidens.elim

end System

namespace OneConnection

/-- The postmaster allows the connection to send as well. -/
def allowSend : List Label :=
  [.request (.update 1 ⟨none, some [.mailRead, .mailSend], none, none⟩)]

/-- The client redeems its code 9, whose hash is 10. -/
def redeem : List Label :=
  askToken 10 (some codeVerifier) ++ [.resume 0 .done]

def path : List Char := connectionIdText 1

/-- The access token 12 of the grant 11 has the hash 13. -/
def bearer : BearerHeader := .token 13

def sender : McpAuthContext :=
  ⟨1, 0, "owner@example.com", 11, "dcr_5", [.mailRead, .mailSend], []⟩

/-- Sending is allowed before the owner comes to the consent page. -/
def allowedBefore : List Label :=
  prepared ++ (allowSend ++ (signIn ++ approve ++ redeem))

theorem allowedBefore_widensAsShown :
    StepRun.Meets (System.step env) System.WidensAsShown start allowedBefore := by
  have hothers : ∀ labels : List Label, (∀ label ∈ labels, ∀ id fields,
      label ≠ .request (.update id fields)) → ∀ start,
        StepRun.Meets (System.step env) System.WidensAsShown start labels := by
    intro labels hlabels start
    apply StepRun.meets_of_forall
    intro label hlabel system
    exact System.widensAsShown_of_not_update (hlabels label hlabel) system
  rw [allowedBefore, StepRun.meets_append]
  refine ⟨hothers _ (by simp [prepared]) _, ⟨?_, hothers _ ?_ _⟩⟩
  · intro request connectionId hopen
    have hrequests : (StepRun.run (System.step env) start prepared).server.requests = [] := by
      decide
    have htasks : (StepRun.run (System.step env) start prepared).tasks = [] := by
      decide
    rcases hopen with ⟨hawaiting, -⟩ | ⟨task, htask, -⟩
    · have hmem := hawaiting.mem
      rw [hrequests] at hmem
      cases hmem
    · rw [htasks] at htask
      cases htask
  · simp [signIn, approve, redeem, askToken]

/-- The connection is widened before the consent page is shown, so that the page has the new
permission on it and the token may carry it. -/
theorem allowedBefore_bearer_sound :
    System.BearerSound (System.run env start allowedBefore) path bearer sender :=
  System.bearer_sound_of_widensAsShown allowedBefore_widensAsShown path bearer sender
    (by decide)

/-- Sending is allowed after the consent page that shows reading alone. -/
def allowedAfter : List Label :=
  prepared ++ signIn ++ allowSend ++ approve ++ redeem

/-- The code, and so the token, carries what was allowed at the decision, which is more than
what stood on the page that the user agreed to. -/
theorem bearer_exceeds_consent :
    ¬ ∀ env system, System.Reachable env system → ∀ connectionId authorization context,
      (system.server.verify connectionId authorization).1 = .ok context →
        System.BearerSound system connectionId authorization context := by
  intro hclaim
  have hpages : ∀ event ∈ (System.run env start allowedAfter).server.history,
      ∀ requestId connectionId shown, event = .consentShown requestId connectionId shown →
        shown = [.mailRead] := by
    have hall : ((System.run env start allowedAfter).server.history.all fun event =>
        match event with
        | .consentShown _ _ shown => shown = [.mailRead]
        | _ => true) = true := by
      decide
    intro event hevent requestId connectionId shown heq
    have hevent := List.all_eq_true.mp hall event hevent
    simpa [heq] using hevent
  obtain ⟨presented, -, connection, token, grant, binding, -, hconsented⟩ :=
    hclaim env (System.run env start allowedAfter) ⟨settings, some "k1", 1000, _, rfl⟩
      path bearer sender (by decide)
  obtain ⟨-, code, -, -, -, newer, issued, older, shown, hhistory, -, hshown, hscopes⟩ :=
    hconsented
  have hpage := mem_of_lastConsent hshown
  have honly := hpages _ (hhistory ▸ List.mem_append_right newer
    (List.mem_cons_of_mem _ hpage)) _ _ shown rfl
  have hsend := hscopes .mailSend (by simp [sender])
  rw [honly] at hsend
  simp at hsend

end OneConnection

end Mcp

end MailPanel
