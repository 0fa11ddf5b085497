import MailPanel.EventHistory
import MailPanel.McpSingleUse

/-
A new setup password ends what was signed in to with the old one, as long as no
transaction that is signed in to is still open when an enrollment is reset.
-/

namespace MailPanel

namespace Mcp

open RowTable EventHistory

/-- The event gives this enrollment, or its connection, a new setup password. -/
def Event.renews (enrollmentId connectionId : Id) : Event → Prop
  | .enrollmentReset id _ => id = enrollmentId
  | .enrollmentIssued _ connection | .rotated connection => connection = connectionId
  | _ => False

/-- The request was signed in to, and the setup password has not changed since. -/
def SignedInSince (history : List Event) (requestId enrollmentId connectionId : Id) : Prop :=
  Since (Event.renews enrollmentId connectionId)
    (.authenticated requestId enrollmentId connectionId) history

/-- A new code or grant comes of a request with such a sign-in. -/
def Event.Fresh : Event → List Event → Prop
  | .codeIssued code, older | .grantIssued _ code _, older =>
      SignedInSince older code.requestId code.enrollmentId code.connectionId
  | _, _ => True

/-- A request that may still lead to a grant: an open transaction, or its code. -/
structure Reliance where
  requestId : Id
  enrollmentId : Id
  connectionId : Id
  code : Option Id

/-- A code relies on the row that is reserved for it. -/
def Reliance.On (reliance : Reliance) (row : EnrollmentRow) : Prop :=
  ∀ codeId, reliance.code = some codeId → row.reservedCodeId = some codeId

namespace Server

variable {mandate : Mandate} {s t : Server} {reliance : Reliance}

/-- A live enrollment that the request relies on has kept its setup password since. -/
def SignedIn (s : Server) (reliance : Reliance) : Prop :=
  ∀ row ∈ s.enrollments, row.id = reliance.enrollmentId → row.revokedAt = none →
    reliance.On row → SignedInSince s.history reliance.requestId reliance.enrollmentId
      reliance.connectionId

structure Backed (s : Server) (reliance : Reliance) : Prop where
  enrollment : s.EnrollmentOf reliance.enrollmentId reliance.connectionId
  code_drawn : ∀ codeId, reliance.code = some codeId → codeId < s.nextId
  signedIn : s.SignedIn reliance

theorem SignedIn.later {events : List Event} (h : s.SignedIn reliance)
    (hhistory : t.history = events ++ s.history)
    (hlive : ∀ row ∈ t.enrollments, row.id = reliance.enrollmentId → row.revokedAt = none →
      reliance.On row →
        (∃ old ∈ s.enrollments, old.id = reliance.enrollmentId ∧ old.revokedAt = none ∧
          reliance.On old) ∧
        ∀ event ∈ events, ¬ event.renews reliance.enrollmentId reliance.connectionId) :
    t.SignedIn reliance := by
  intro row hrow hid hunrevoked hon
  obtain ⟨⟨old, hold, holdId, holdUnrevoked, holdOn⟩, hevents⟩ :=
    hlive row hrow hid hunrevoked hon
  rw [hhistory]
  exact Since.append (h old hold holdId holdUnrevoked holdOn) hevents

theorem SignedIn.evolves (h : s.SignedIn reliance) (hevolves : s.Evolves mandate t) :
    t.SignedIn reliance := by
  obtain ⟨events, hhistory, hevents⟩ := hevolves.history
  apply h.later hhistory
  intro row hrow hid hunrevoked hon
  constructor
  · rcases hevolves.enrollments row hrow with ⟨old, hold, hgoesOn⟩ | hfalse
    · refine ⟨old, hold, ?_, ?_, ?_⟩
      · rw [hgoesOn.1] at hid
        exact hid
      · by_contra hrevoked
        exact hgoesOn.2.2 hrevoked hunrevoked
      · intro codeId hcode
        have hreserved := hon codeId hcode
        rw [hgoesOn.1] at hreserved
        exact hreserved
    · exact hfalse.elim
  · intro event hevent hrenews
    obtain ⟨connectionId, rfl, -⟩ := hevents event hevent
    exact hrenews

/-- Events that renew nothing, with the enrollments as they are. -/
theorem SignedIn.recorded {events : List Event} (h : s.SignedIn reliance)
    (hhistory : t.history = events ++ s.history) (henrollments : t.enrollments = s.enrollments)
    (hevents : ∀ event ∈ events, ∀ enrollmentId connectionId,
      ¬ event.renews enrollmentId connectionId) : t.SignedIn reliance := by
  apply h.later hhistory
  intro row hrow hid hunrevoked hon
  rw [henrollments] at hrow
  exact ⟨⟨row, hrow, hid, hunrevoked, hon⟩, fun event hevent => hevents event hevent _ _⟩

theorem showConsent_renews_nothing (s : Server) (requestId connectionId enrollmentId : Id)
    (scopes : List McpScope) :
    ∃ events, (s.showConsent requestId connectionId enrollmentId scopes).history =
        events ++ s.history ∧
      ∀ event ∈ events, ∀ enrollmentId connectionId,
        ¬ event.renews enrollmentId connectionId := by
  rw [showConsent_history]
  refine ⟨_, List.append_cons _ _ _, ?_⟩
  intro event hevent enrollmentId connectionId
  rcases List.mem_append.mp hevent with hevent | hevent
  · split at hevent
    · rw [List.mem_singleton.mp hevent]
      exact fun h => h
    · cases hevent
  · rw [List.mem_singleton.mp hevent]
    exact fun h => h

theorem SignedIn.showConsent (h : s.SignedIn reliance) (requestId connectionId
    enrollmentId : Id) (scopes : List McpScope) :
    (s.showConsent requestId connectionId enrollmentId scopes).SignedIn reliance := by
  obtain ⟨events, hhistory, hevents⟩ :=
    showConsent_renews_nothing s requestId connectionId enrollmentId scopes
  obtain ⟨requests, history, heq⟩ :=
    showConsent_kept s requestId connectionId enrollmentId scopes
  apply h.recorded hhistory _ hevents
  rw [heq]

/-- A reservation for a new code takes the enrollment from the codes before it. -/
theorem SignedIn.issued (h : s.SignedIn reliance)
    (hdrawn : ∀ codeId, reliance.code = some codeId → codeId < s.nextId)
    (input : IssueCodeInput) : (s.issued input).SignedIn reliance := by
  have hhistory : (s.issued input).history = [.codeIssued (s.codeRow input)] ++ s.history :=
    rfl
  apply h.later hhistory
  intro row hrow hid hunrevoked hon
  constructor
  · obtain ⟨old, hold, hrow⟩ := exists_of_mem_updateWhere hrow
    refine ⟨old, hold, ?_, ?_, ?_⟩
    · rw [← hid, hrow]
      split <;> rfl
    · rw [← hunrevoked, hrow]
      split <;> rfl
    · intro codeId hcode
      have hreserved := hon codeId hcode
      rw [hrow] at hreserved
      split at hreserved
      · have hnew : s.nextId = codeId := Option.some.inj hreserved
        exact absurd (hdrawn codeId hcode) (by rw [hnew]; exact Nat.lt_irrefl _)
      · exact hreserved
  · intro event hevent hrenews
    rw [List.mem_singleton.mp hevent] at hrenews
    exact hrenews

theorem SignedIn.storeGrant (h : s.SignedIn reliance) (client : OAuthClientRow)
    (code : AuthorizationCodeRow) (scopes : List McpScope) (codeVerifier : String) :
    (s.storeGrant client code scopes codeVerifier).SignedIn reliance := by
  have hhistory : (s.storeGrant client code scopes codeVerifier).history =
      [.grantIssued (s.grantRow client code scopes) code codeVerifier] ++ s.history := rfl
  apply h.recorded hhistory rfl
  intro event hevent enrollmentId connectionId hrenews
  rw [List.mem_singleton.mp hevent] at hrenews
  exact hrenews

/-- A reset leaves alone what does not rely on the row it resets: only the columns of that one
row are changed. -/
theorem SignedIn.resetEnrollment (h : s.SignedIn reliance) (enrollmentId : Id)
    (passwordHash : Secret) (expiresAt : Time)
    (hother : ∀ row ∈ s.enrollments, row.id = enrollmentId →
      reliance.enrollmentId = enrollmentId →
        ¬ reliance.On (s.resetRow passwordHash expiresAt row)) :
    (s.resetEnrollment enrollmentId passwordHash expiresAt).SignedIn reliance := by
  obtain ⟨events, hhistory, hevents⟩ : ∃ events,
      (s.resetEnrollment enrollmentId passwordHash expiresAt).history = events ++ s.history ∧
        ∀ event ∈ events, ∃ connectionId, event = .enrollmentReset enrollmentId connectionId := by
    cases hfind : s.findEnrollmentById enrollmentId with
    | none => exact ⟨[], by simp [Server.resetEnrollment, hfind], by simp⟩
    | some row =>
        exact ⟨[.enrollmentReset enrollmentId row.connectionId],
          resetEnrollment_history hfind passwordHash expiresAt, by simp⟩
  obtain ⟨history, heq⟩ := resetEnrollment_kept s enrollmentId passwordHash expiresAt
  apply h.later hhistory
  rw [heq]
  intro row hrow hid hunrevoked hon
  rcases mem_updateWhere.mp hrow with ⟨hold, hcondition⟩ | ⟨old, hold, hcondition, rfl⟩
  · refine ⟨⟨row, hold, hid, hunrevoked, hon⟩, ?_⟩
    intro event hevent hrenews
    obtain ⟨connectionId, rfl⟩ := hevents event hevent
    have hsame : enrollmentId = reliance.enrollmentId := hrenews
    simp [hid, hsame] at hcondition
  · have hold' : old.id = enrollmentId := by simpa using hcondition
    have hsame : reliance.enrollmentId = enrollmentId := hid.symm.trans hold'
    exact absurd hon (hother old hold hold' hsame)

/-- A new enrollment ends the others of its connection, and is nobody's yet. -/
theorem Backed.storeEnrollment (h : s.Backed reliance) (operation : IssueOperation)
    (connectionId : Id) (username : Nat) (passwordHash : Secret) (expiresAt : Time) :
    ((s.noted operation connectionId).storeEnrollment connectionId username passwordHash
      expiresAt).SignedIn reliance := by
  obtain ⟨events, hhistory, hevents⟩ : ∃ events,
      ((s.noted operation connectionId).storeEnrollment connectionId username passwordHash
        expiresAt).history = events ++ s.history ∧
      ∀ event ∈ events, ∀ enrollmentId otherId, event.renews enrollmentId otherId →
        otherId = connectionId := by
    cases operation with
    | create => exact ⟨[_], rfl, by simp [Event.renews, eq_comm]⟩
    | reissue => exact ⟨[_], rfl, by simp [Event.renews, eq_comm]⟩
    | rotate => exact ⟨[_, _], rfl, by simp [Event.renews, eq_comm]⟩
  have hkept : (s.noted operation connectionId).enrollments = s.enrollments ∧
      (s.noted operation connectionId).nextId = s.nextId := by
    cases operation <;> exact ⟨rfl, rfl⟩
  apply h.signedIn.later hhistory
  intro row hrow hid hunrevoked hon
  rcases List.mem_append.mp hrow with hrow | hrow
  · rcases mem_updateWhere.mp hrow with ⟨hold, hcondition⟩ | ⟨old, -, -, rfl⟩
    · rw [hkept.1] at hold
      refine ⟨⟨row, hold, hid, hunrevoked, hon⟩, ?_⟩
      intro event hevent hrenews
      have hconnection := h.enrollment.connection row hold hid
      rw [hevents event hevent _ _ hrenews] at hconnection
      simp [hconnection, hunrevoked] at hcondition
    · cases hunrevoked
  · rw [List.mem_singleton.mp hrow] at hid
    have hdrawn := h.enrollment.drawn
    rw [← hid] at hdrawn
    exact absurd hdrawn (by rw [hkept.2]; exact Nat.lt_irrefl _)

theorem SignedIn.grantCode (h : s.SignedIn reliance) (client : OAuthClientRow)
    (code : AuthorizationCodeRow) (scopes : List McpScope) (codeVerifier : String) :
    ((s.redeemed code).grantCode client code scopes codeVerifier).2.SignedIn reliance := by
  have hredeemed : s.Evolves Mandate.none (s.redeemed code) := evolves_redeemed code
  have hgranted : ((s.redeemed code).storeGrant client code scopes codeVerifier).Evolves
      Mandate.none ((s.redeemed code).grantCode client code scopes codeVerifier).2 :=
    evolves_grantCode client code scopes codeVerifier
  exact ((h.evolves hredeemed).storeGrant client code scopes codeVerifier).evolves hgranted

end Server

namespace System

variable {env : Env} {system next : System} {label : Label} {reliance : Reliance}

/-- What may still become a grant in this state: a signed-in transaction, a decision that is
being made, or a code that has been issued. Each relies on an enrollment and a connection. -/
inductive Relies (system : System) : Reliance → Prop
  | transaction {row : AuthorizationRequestRow} {enrollmentId connectionId : Id}
      (awaiting : system.server.Awaiting row) (enrollment : row.enrollmentId = some enrollmentId)
      (connection : row.connectionId = some connectionId) :
      Relies system ⟨row.id, enrollmentId, connectionId, none⟩
  | decision {task : Task} {wait : DecideWait} (mem : task ∈ system.tasks)
      (approving : task.approving = some wait) :
      Relies system ⟨wait.request.id, wait.enrollmentId, wait.connectionId, none⟩
  | code {row : AuthorizationCodeRow} (mem : row ∈ system.server.codes) :
      Relies system ⟨row.requestId, row.enrollmentId, row.connectionId, some row.id⟩

/-- The enrollment that the step resets, if it resets one: the step in which a reissue has its
hash and finds its row. -/
def resetId (system : System) : Label → Option Id
  | .resume index .done =>
      match system.tasks[index]? with
      | some (.hashing .reissue pending) =>
          (pending.previous.map EnrollmentRow.id).filter fun id =>
            (system.server.findEnrollmentById id).isSome
      | _ => none
  | _ => none

/-- No transaction signed in to with the enrollment is open, and no approval of one waits,
when the step resets it. -/
def ResetsIdle (system : System) (label : Label) : Prop :=
  ∀ id ∈ system.resetId label,
    (∀ row ∈ system.server.requests, row.authenticatedAt ≠ none → row.completedAt = none →
      system.server.now < row.expiresAt → row.enrollmentId ≠ some id) ∧
    ∀ task ∈ system.tasks, ∀ wait ∈ task.approving, wait.enrollmentId ≠ id

instance (system : System) (label : Label) : Decidable (system.ResetsIdle label) :=
  inferInstanceAs (Decidable (∀ id ∈ system.resetId label, _))

structure Renewed (system : System) : Prop where
  backed : ∀ reliance, system.Relies reliance → system.server.Backed reliance
  history : Each Event.Fresh system.server.history

theorem resetId_eq_some {index : Nat} {pending : PendingIssue} {previous row : EnrollmentRow}
    (htask : system.tasks[index]? = some (.hashing .reissue pending))
    (hprevious : pending.previous = some previous)
    (hrow : row ∈ system.server.enrollments) (hid : row.id = previous.id) :
    system.resetId (.resume index .done) = some previous.id := by
  have hfound : (system.server.findEnrollmentById previous.id).isSome := by
    cases hfind : system.server.findEnrollmentById previous.id with
    | none => exact absurd hid (lookup_eq_none hfind hrow)
    | some found => rfl
  simp [resetId, htask, hprevious, hfound]

/-- What is relied on has its sign-in backed through a step that resets only idle
enrollments. -/
theorem Stepped.backed (hsystem : system.Sound) (hidle : system.ResetsIdle label)
    (hstep : Stepped env system label next) (hrelies : system.Relies reliance)
    (hbacked : system.server.Backed reliance) : next.server.Backed reliance where
  enrollment := hstep.enrollmentOf hsystem hbacked.enrollment
  code_drawn := fun codeId hcode =>
    Nat.lt_of_lt_of_le (hbacked.code_drawn codeId hcode) (hstep.grants hsystem).1
  signedIn := by
    have hsignedIn := hbacked.signedIn
    cases hstep with
    | evolved hevolves _ => exact hsignedIn.evolves hevolves
    | @signedIn _ wait =>
        have hattempt : system.server.Evolves Mandate.none
            (system.server.recordAttempt wait.ip wait.form.username true) :=
          Server.evolves_recordAttempt _ _ _
        exact (hsignedIn.evolves hattempt).showConsent _ _ _ _
    | approved _ _ hevolves _ =>
        exact (hsignedIn.issued hbacked.code_drawn _).evolves hevolves
    | redeemed _ _ _ _ => exact hsignedIn.grantCode _ _ _ _
    | @hashed index operation pending hlabel htask =>
        rcases Server.finishHash_cases operation pending
            (hsystem.newUsername _ (List.mem_of_getElem? htask) operation pending rfl) with
          heq | ⟨previous, rfl, hprevious, heq⟩ | ⟨-, heq⟩
        · rw [heq]
          exact hsignedIn
        · rw [heq]
          apply hsignedIn.resetEnrollment
          intro row hrow hid hsame hon
          have hreset := resetId_eq_some htask hprevious hrow hid
          obtain ⟨hrequests, htasks⟩ := hidle previous.id (hlabel ▸ hreset)
          cases hrelies with
          | transaction hawaiting henrollment _ =>
              exact hrequests _ hawaiting.mem hawaiting.authenticated hawaiting.incomplete
                hawaiting.unexpired (henrollment.trans (congrArg some hsame))
          | decision hmem happroving => exact htasks _ hmem _ happroving hsame
          | code _ => cases hon _ rfl
        · rw [heq]
          exact hbacked.storeEnrollment operation pending.connectionId _ _ _

theorem approving_eq_some {task : Task} {wait : DecideWait} :
    task.approving = some wait ↔
      task.held = .decide wait ∧ wait.decision = some "approve" := by
  rw [Task.approving]
  cases hheld : task.held with
  | decide other =>
      by_cases happrove : other.decision = some "approve"
      · simp only [happrove, ↓reduceIte, Option.some.injEq, Held.decide.injEq]
        constructor
        · rintro rfl
          exact ⟨rfl, happrove⟩
        · exact fun h => h.1
      · simp only [happrove, ↓reduceIte, reduceCtorEq, Held.decide.injEq, false_iff]
        rintro ⟨rfl, happroved⟩
        exact happrove happroved
  | nothing => simp
  | login request => simp
  | issue operation pending => simp

/-- An open transaction of the next state that the step did not sign in to. -/
theorem awaiting_evolves {mandate : Mandate} {s t : Server} (h : s.Evolves mandate t)
    {row : AuthorizationRequestRow} (hawaiting : t.Awaiting row) :
    ∃ old, s.Awaiting old ∧ old.id = row.id ∧ old.enrollmentId = row.enrollmentId ∧
      old.connectionId = row.connectionId := by
  rcases h.requests row hawaiting.mem with ⟨old, hold, hgoesOn⟩ | hnew
  · refine ⟨old, ⟨hold, ?_, ?_, ?_⟩, by rw [hgoesOn.1], by rw [hgoesOn.1], by rw [hgoesOn.1]⟩
    · have hauthenticated := hawaiting.authenticated
      rw [hgoesOn.1] at hauthenticated
      exact hauthenticated
    · by_contra hcompleted
      exact hgoesOn.2 hcompleted hawaiting.incomplete
    · have hunexpired := hawaiting.unexpired
      rw [hgoesOn.1] at hunexpired
      exact Nat.lt_of_le_of_lt h.now_le hunexpired
  · exact absurd hnew.2 hawaiting.authenticated

/-- An approval that waits after the step waited before it, or is of a transaction. -/
theorem Stepped.approving (hstep : Stepped env system label next) {task : Task}
    {wait : DecideWait} (htask : task ∈ next.tasks) (happroving : task.approving = some wait) :
    (∃ old ∈ system.tasks, old.approving = some wait) ∨
      next.server.Awaiting wait.request ∧
        wait.request.enrollmentId = some wait.enrollmentId ∧
        wait.request.connectionId = some wait.connectionId := by
  rcases hstep.tasksGoOn task htask with ⟨old, hold, hsame⟩ | hbegun
  · refine Or.inl ⟨old, hold, ?_⟩
    rw [← happroving, Task.approving, Task.approving, hsame.1]
  · have hheld := hbegun.1
    rw [(approving_eq_some.mp happroving).1] at hheld
    obtain ⟨hloaded, hsignedIn⟩ : next.server.Loaded wait.request ∧ wait.SignedIn := hheld
    exact Or.inr ⟨⟨hloaded.mem, hsignedIn.authenticated, hloaded.incomplete,
      hloaded.unexpired⟩, hsignedIn.enrollment, hsignedIn.connection⟩

/-- An open transaction was open before the step with the same sign-in, or the step is
its sign-in. -/
theorem Stepped.transaction (hsystem : system.Sound) (hstep : Stepped env system label next)
    {row : AuthorizationRequestRow} {enrollmentId connectionId : Id}
    (hawaiting : next.server.Awaiting row) (henrollment : row.enrollmentId = some enrollmentId)
    (hconnection : row.connectionId = some connectionId) :
    system.Relies ⟨row.id, enrollmentId, connectionId, none⟩ ∨
      next.server.Backed ⟨row.id, enrollmentId, connectionId, none⟩ := by
  have hbefore : ∀ {mandate} {s : Server}, s.Evolves mandate next.server →
      (∀ old, s.Awaiting old → system.server.Awaiting old) →
      system.Relies ⟨row.id, enrollmentId, connectionId, none⟩ := by
    intro mandate s hevolves hsame
    obtain ⟨old, hold, hid, holdEnrollment, holdConnection⟩ :=
      awaiting_evolves hevolves hawaiting
    rw [← hid]
    exact .transaction (hsame old hold) (holdEnrollment.trans henrollment)
      (holdConnection.trans hconnection)
  cases hstep with
  | evolved hevolves _ => exact Or.inl (hbefore hevolves fun _ h => h)
  | @signedIn _ wait enrollment connection hheld hproblem hfind hsubset =>
      obtain ⟨task, htask, hlogin, hread⟩ := hheld
      have hmem := hawaiting.mem
      obtain ⟨requests, history, heq⟩ := Server.showConsent_kept
        (system.server.recordAttempt wait.ip wait.form.username true) wait.request.id
        connection.id enrollment.id (grantedScopes wait.request connection.scopes)
      have hunexpired := hawaiting.unexpired
      dsimp only at hmem hunexpired
      rw [Server.showConsent_requests] at hmem
      rw [heq] at hunexpired
      rcases mem_updateWhere.mp hmem with ⟨hold, -⟩ | ⟨old, hold, hopen, rfl⟩
      · exact Or.inl (.transaction
          ⟨hold, hawaiting.authenticated, hawaiting.incomplete, hunexpired⟩
          henrollment hconnection)
      · refine Or.inr ?_
        cases henrollment
        cases hconnection
        have hknown := hsystem.presented task htask enrollment hread
        rw [← (Server.findConnection_mem hfind).2] at hknown
        have hsigned : Stepped env system label _ :=
          .signedIn ⟨task, htask, hlogin, hread⟩ hproblem hfind hsubset
        refine ⟨hsigned.enrollmentOf hsystem hknown, fun _ h => (by cases h), ?_⟩
        intro _ _ _ _ _
        have hmarked : 0 < changes system.server.requests (Server.openRequest wait.request.id) :=
          changes_pos_iff.mpr ⟨old, hold, hopen⟩
        have hid : old.id = wait.request.id := by
          simp only [Server.openRequest, decide_eq_true_eq] at hopen
          exact hopen.1
        dsimp only
        rw [Server.showConsent_history, if_pos (by exact hmarked), hid]
        exact since_cons_self
  | approved _ _ hevolves _ => exact Or.inl (hbefore hevolves fun _ h => ⟨h.1, h.2, h.3, h.4⟩)
  | @redeemed _ _ _ _ _ client code codeVerifier scopes =>
      have hgranted : Server.Evolves Mandate.none _
          ((system.server.redeemed code).grantCode client code scopes codeVerifier).2 :=
        Server.evolves_grantCode client code scopes codeVerifier
      exact Or.inl (hbefore hgranted fun _ h => ⟨h.1, h.2, h.3, h.4⟩)
  | @hashed _ operation pending _ htask =>
      refine Or.inl (.transaction ?_ henrollment hconnection)
      rcases Server.finishHash_cases operation pending
          (hsystem.newUsername _ (List.mem_of_getElem? htask) operation pending rfl) with
        heq | ⟨previous, -, -, heq⟩ | ⟨-, heq⟩
      · rw [heq] at hawaiting
        exact hawaiting
      · obtain ⟨history, hreset⟩ := Server.resetEnrollment_kept system.server previous.id
          pending.setupPassword (system.server.setupExpiry pending)
        rw [heq, hreset] at hawaiting
        exact ⟨hawaiting.1, hawaiting.2, hawaiting.3, hawaiting.4⟩
      · rw [heq] at hawaiting
        cases operation <;> exact ⟨hawaiting.1, hawaiting.2, hawaiting.3, hawaiting.4⟩

/-- A code was there before the step, or the step issues it on an approval. -/
theorem Stepped.codeRelies (hsystem : system.Sound) (hrenewed : system.Renewed)
    (hidle : system.ResetsIdle label) (hstep : Stepped env system label next)
    {row : AuthorizationCodeRow} (hrow : row ∈ next.server.codes) :
    system.Relies ⟨row.requestId, row.enrollmentId, row.connectionId, some row.id⟩ ∨
      next.server.Backed ⟨row.requestId, row.enrollmentId, row.connectionId, some row.id⟩ := by
  have hcodes : ∀ {mandate} {s : Server}, s.Evolves mandate next.server → ∃ old ∈ s.codes,
      old.requestId = row.requestId ∧ old.enrollmentId = row.enrollmentId ∧
        old.connectionId = row.connectionId ∧ old.id = row.id := by
    intro mandate s hevolves
    rcases hevolves.codes row hrow with ⟨old, hold, hgoesOn⟩ | hfalse
    · refine ⟨old, hold, ?_⟩
      rw [hgoesOn.1]
      exact ⟨rfl, rfl, rfl, rfl⟩
    · exact hfalse.elim
  have hrelies : ∀ old ∈ system.server.codes, old.requestId = row.requestId →
      old.enrollmentId = row.enrollmentId → old.connectionId = row.connectionId →
        old.id = row.id →
        system.Relies ⟨row.requestId, row.enrollmentId, row.connectionId, some row.id⟩ := by
    intro old hold hrequest henrollment hconnection hid
    rw [← hrequest, ← henrollment, ← hconnection, ← hid]
    exact .code hold
  have hnext := hstep
  cases hstep with
  | evolved hevolves _ =>
      obtain ⟨old, hold, hrequest, henrollment, hconnection, hid⟩ := hcodes hevolves
      exact Or.inl (hrelies old hold hrequest henrollment hconnection hid)
  | @signedIn _ wait enrollment connection =>
      obtain ⟨requests, history, heq⟩ := Server.showConsent_kept
        (system.server.recordAttempt wait.ip wait.form.username true) wait.request.id
        connection.id enrollment.id (grantedScopes wait.request connection.scopes)
      rw [heq] at hrow
      exact Or.inl (hrelies row hrow rfl rfl rfl rfl)
  | @approved _ _ wait client enrollment connection hheld happroval hevolves _ =>
      obtain ⟨old, hold, hrequest, henrollment, hconnection, hid⟩ := hcodes hevolves
      rcases List.mem_append.mp hold with hold | hnew
      · exact Or.inl (hrelies old hold hrequest henrollment hconnection hid)
      · obtain ⟨_, task, -, htask, hdecide⟩ := hheld
        have hdecision : system.Relies
            ⟨wait.request.id, wait.enrollmentId, wait.connectionId, none⟩ :=
          .decision (List.mem_of_getElem? htask) (approving_eq_some.mpr ⟨hdecide, happroval.approved⟩)
        have hbacked := hnext.backed hsystem hidle hdecision (hrenewed.backed _ hdecision)
        rw [List.mem_singleton.mp hnew] at hrequest henrollment hconnection hid
        have henrollmentId : wait.enrollmentId = row.enrollmentId :=
          (key_of_lookup happroval.enrollment_found).symm.trans henrollment
        have hconnectionId : wait.connectionId = row.connectionId :=
          (Server.findConnection_mem happroval.connection_found).2.symm.trans hconnection
        rw [henrollmentId, hconnectionId, show wait.request.id = row.requestId from hrequest]
          at hbacked
        refine Or.inr ⟨hbacked.enrollment, ?_, ?_⟩
        · intro codeId hcode
          rw [← Option.some.inj hcode]
          exact (hnext.wellFormed hsystem).code_lt row hrow
        · intro other hother hotherId hunrevoked _
          exact hbacked.signedIn other hother hotherId hunrevoked fun _ h => (by cases h)
  | @redeemed _ _ _ _ _ client code codeVerifier scopes =>
      have hredeemed : system.server.Evolves Mandate.none (system.server.redeemed code) :=
        Server.evolves_redeemed code
      have hgranted : Server.Evolves Mandate.none _
          ((system.server.redeemed code).grantCode client code scopes codeVerifier).2 :=
        Server.evolves_grantCode client code scopes codeVerifier
      obtain ⟨stored, hstored, hrequest, henrollment, hconnection, hid⟩ := hcodes hgranted
      obtain ⟨marked, hmarked, heq⟩ := exists_of_mem_updateWhere hstored
      obtain ⟨old, hold, hgoesOn⟩ : ∃ old ∈ system.server.codes,
          AuthorizationCodeRow.GoesOn old marked := by
        rcases hredeemed.codes marked hmarked with hold | hfalse
        · exact hold
        · exact hfalse.elim
      have hsame : old.requestId = stored.requestId ∧
          old.enrollmentId = stored.enrollmentId ∧
          old.connectionId = stored.connectionId ∧ old.id = stored.id := by
        rw [heq, hgoesOn.1]
        split <;> exact ⟨rfl, rfl, rfl, rfl⟩
      exact Or.inl (hrelies old hold (hsame.1.trans hrequest) (hsame.2.1.trans henrollment)
        (hsame.2.2.1.trans hconnection) (hsame.2.2.2.trans hid))
  | @hashed _ operation pending _ htask =>
      refine Or.inl (hrelies row ?_ rfl rfl rfl rfl)
      rcases Server.finishHash_cases operation pending
          (hsystem.newUsername _ (List.mem_of_getElem? htask) operation pending rfl) with
        heq | ⟨previous, -, -, heq⟩ | ⟨-, heq⟩
      · rw [heq] at hrow
        exact hrow
      · obtain ⟨history, hreset⟩ := Server.resetEnrollment_kept system.server previous.id
          pending.setupPassword (system.server.setupExpiry pending)
        rw [heq, hreset] at hrow
        exact hrow
      · rw [heq] at hrow
        cases operation <;> exact hrow

theorem Stepped.relies (hsystem : system.Sound) (hrenewed : system.Renewed)
    (hidle : system.ResetsIdle label) (hstep : Stepped env system label next)
    (hrelies : next.Relies reliance) :
    system.Relies reliance ∨ next.server.Backed reliance := by
  cases hrelies with
  | transaction hawaiting henrollment hconnection =>
      exact hstep.transaction hsystem hawaiting henrollment hconnection
  | decision htask happroving =>
      rcases hstep.approving htask happroving with
        ⟨old, hold, happrovingOld⟩ | ⟨hawaiting, henrollment, hconnection⟩
      · exact Or.inl (.decision hold happrovingOld)
      · exact hstep.transaction hsystem hawaiting henrollment hconnection
  | code hrow => exact hstep.codeRelies hsystem hrenewed hidle hrow

/-- Evolving adds no code and no grant to the history. -/
theorem each_fresh_evolves {mandate : Mandate} {s t : Server} (h : s.Evolves mandate t)
    (hhistory : Each Event.Fresh s.history) : Each Event.Fresh t.history := by
  obtain ⟨events, heq, hevents⟩ := h.history
  rw [heq]
  apply each_append _ hhistory
  intro event hevent older
  obtain ⟨connectionId, rfl, -⟩ := hevents event hevent
  exact trivial

theorem Renewed.history_stepped (hsystem : system.Sound) (hrenewed : system.Renewed)
    (hstep : Stepped env system label next) : Each Event.Fresh next.server.history := by
  have hhistory := hrenewed.history
  cases hstep with
  | evolved hevolves _ => exact each_fresh_evolves hevolves hhistory
  | @signedIn _ wait enrollment connection =>
      dsimp only
      rw [Server.showConsent_history]
      apply each_append
      · intro event hevent older
        split at hevent
        · rw [List.mem_singleton.mp hevent]
          exact trivial
        · cases hevent
      · exact each_cons.mpr ⟨trivial, hhistory⟩
  | @approved _ _ wait client enrollment connection hheld happroval hevolves _ =>
      apply each_fresh_evolves hevolves
      obtain ⟨_, task, -, htask, hdecide⟩ := hheld
      have hdecision : system.Relies
          ⟨wait.request.id, wait.enrollmentId, wait.connectionId, none⟩ :=
        .decision (List.mem_of_getElem? htask) (approving_eq_some.mpr ⟨hdecide, happroval.approved⟩)
      have hid : enrollment.id = wait.enrollmentId :=
        key_of_lookup happroval.enrollment_found
      have hsignedIn := (hrenewed.backed _ hdecision).signedIn enrollment
        (mem_of_lookup happroval.enrollment_found) hid
        (Server.enrollmentProblem_none happroval.noProblem).unrevoked fun _ h => (by cases h)
      have hfresh : SignedInSince system.server.history wait.request.id enrollment.id
          connection.id := by
        rw [hid, (Server.findConnection_mem happroval.connection_found).2]
        exact hsignedIn
      have hissued : Event.Fresh (.codeIssued (system.server.codeRow
          (Server.issueInput wait client enrollment connection))) system.server.history :=
        hfresh
      have hcons := each_cons.mpr ⟨hissued, hhistory⟩
      exact hcons
  | @redeemed _ _ _ _ _ client code codeVerifier scopes _ _ hredemption _ =>
      have hgranted : Server.Evolves Mandate.none _
          ((system.server.redeemed code).grantCode client code scopes codeVerifier).2 :=
        Server.evolves_grantCode client code scopes codeVerifier
      apply each_fresh_evolves hgranted
      obtain ⟨row, hrow, hconsumable⟩ := hredemption.consumable
      simp only [Server.consumable, decide_eq_true_eq] at hconsumable
      obtain ⟨hid, hreserved, -, hunrevoked⟩ := hconsumable
      have hissued : Event.Fresh (.grantIssued ((system.server.redeemed code).grantRow client
          code scopes) code codeVerifier) system.server.history :=
        (hrenewed.backed _ (.code hredemption.mem)).signedIn row hrow hid hunrevoked
          fun codeId hcode => hcode ▸ hreserved
      have hcons := each_cons.mpr ⟨hissued, hhistory⟩
      exact hcons
  | @hashed _ operation pending _ htask =>
      rcases Server.finishHash_cases operation pending
          (hsystem.newUsername _ (List.mem_of_getElem? htask) operation pending rfl) with
        heq | ⟨previous, -, -, heq⟩ | ⟨-, heq⟩
      · rw [heq]
        exact hhistory
      · rw [heq]
        cases hfind : system.server.findEnrollmentById previous.id with
        | none => simpa [Server.resetEnrollment, hfind] using hhistory
        | some row =>
            rw [Server.resetEnrollment_history hfind]
            exact each_cons.mpr ⟨trivial, hhistory⟩
      · rw [heq]
        cases operation with
        | create => exact each_cons.mpr ⟨trivial, hhistory⟩
        | reissue => exact each_cons.mpr ⟨trivial, hhistory⟩
        | rotate => exact each_cons.mpr ⟨trivial, each_cons.mpr ⟨trivial, hhistory⟩⟩

/-- The step lemma. -/
theorem Renewed.stepped (hsystem : system.Sound) (hrenewed : system.Renewed)
    (hidle : system.ResetsIdle label) (hstep : Stepped env system label next) :
    next.Renewed where
  backed := by
    intro reliance hrelies
    rcases hstep.relies hsystem hrenewed hidle hrelies with hbefore | hbacked
    · exact hstep.backed hsystem hidle hbefore (hrenewed.backed reliance hbefore)
    · exact hbacked
  history := hrenewed.history_stepped hsystem hstep

theorem Renewed.initial (settings : McpSettings) (vaultKeyId : Option String) (now : Time) :
    (System.initial settings vaultKeyId now).Renewed where
  backed := by
    intro reliance hrelies
    cases hrelies with
    | transaction hawaiting => cases hawaiting.mem
    | decision hmem => cases hmem
    | code hmem => cases hmem
  history := each_nil

/-- Over every run that resets only idle enrollments, each code and each grant comes of a
sign-in after the latest reissue or rotation of its enrollment. An enrollment is idle when no
transaction that its old secret signed in is still open: the reset itself does not close such
transactions, and an approval does not ask which secret the sign-in used. -/
theorem noStaleAuthorization_of_resetsIdle {settings : McpSettings}
    {vaultKeyId : Option String} {now : Time} {labels : List Label}
    (hidle : StepRun.Meets (System.step env) ResetsIdle
      (System.initial settings vaultKeyId now) labels) :
    Each Event.Fresh
      (System.run env (System.initial settings vaultKeyId now) labels).server.history := by
  have hrun := StepRun.invariant_of_meets (System.step env)
    (fun system => system.Sound ∧ system.Renewed)
    (fun system label h hidle => ⟨h.1.step label,
      h.2.stepped h.1 hidle (step_stepped h.1.server label)⟩)
    ⟨Sound.initial settings vaultKeyId now, Renewed.initial settings vaultKeyId now⟩ hidle
  exact hrun.2.history

end System

namespace OneConnection

/-- The postmaster reissues the setup credentials. -/
def reissue : List Label :=
  [.request (.reissue 1), .resume 0 .done]

/-- The owner's form for transaction 9 with the new setup password 8. -/
def reissuedForm : AuthorizeForm := ⟨some 9, some 10, some 2, some 8, some "approve"⟩

/-- The owner signs in with the reissued password, and the client redeems the code. -/
def reissuedBefore : List Label :=
  prepared ++ reissue ++
    [Label.request (.start [("response_type", "code"), ("client_id", "dcr_5"),
        ("code_challenge", codeChallenge), ("code_challenge_method", "S256")]),
      .resume 0 .done,
      .request (.login reissuedForm (some 9) (some "192.0.2.1")),
      .resume 0 .done,
      .resume 0 .done,
      .request (.decide reissuedForm (some 9)),
      .resume 0 .done] ++
    askToken 12 (some codeVerifier) ++ [Label.resume 0 .done]

/-- The postmaster reissues before the owner signs in, so that the approval rests on the new
secret and the run meets the condition at every step. -/
theorem reissuedBefore_fresh :
    EventHistory.Each Event.Fresh (System.run env start reissuedBefore).server.history ∧
      ((System.run env start reissuedBefore).server.history.any Event.isGrant) = true := by
  have hidle : StepRun.Meets (System.step env) System.ResetsIdle start reissuedBefore := by
    decide
  exact ⟨System.noStaleAuthorization_of_resetsIdle hidle, by decide⟩

/-- The owner's code, issued after the reissue on a sign-in before it. -/
def staleCode : AuthorizationCodeRow :=
  ⟨11, 12, 7, "dcr_5", redirectUri, codeChallenge, [.mailRead],
    "https://mcp.example.com/mcp/c00000000000000000000000001", 1, 4, 1000, 61000, none, none⟩

/-- The owner approves what they signed in to before the reissue: the transaction is still open,
the enrollment is usable again under its new secret, and the code that comes of it is backed by
the old one. -/
theorem reissue_keeps_signIn :
    ¬ ∀ env system, System.Reachable env system →
      EventHistory.Each Event.Fresh system.server.history := by
  intro hclaim
  have hfresh := hclaim env (System.run env start (prepared ++ signIn ++ reissue ++ approve))
    ⟨settings, some "k1", 1000, _, rfl⟩
  have hhistory :
      (System.run env start (prepared ++ signIn ++ reissue ++ approve)).server.history =
        .codeIssued staleCode :: .enrollmentReset 4 1 ::
          (System.run env start (prepared ++ signIn)).server.history := by
    decide
  have hissued : SignedInSince (.enrollmentReset 4 1 ::
      (System.run env start (prepared ++ signIn)).server.history) 7 4 1 :=
    hfresh [] (.codeIssued staleCode) _ hhistory
  have hrenews : Event.renews 4 1 (.enrollmentReset 4 1) := rfl
  exact EventHistory.not_since_cons hrenews (by simp) hissued

end OneConnection

end Mcp

end MailPanel
