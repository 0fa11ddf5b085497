import MailPanel.McpMachine

/-
What every step leaves as it was.  Apart from sign-in, code issue, redemption and
the storing of a setup password, the functions of the service only move rows
forward: an ended row stays ended, and a new row comes with a new id.
-/

namespace MailPanel

namespace Mcp

open RowTable

/-- The connections a request may revoke, and the permissions it may add to one. -/
structure Mandate where
  revokes : Id → Prop
  widens : Id → McpScope → Prop

/-- No connection is revoked or gets more permissions. -/
def Mandate.none : Mandate := ⟨fun _ => False, fun _ _ => False⟩

section Rows

def ConnectionRow.GoesOn (mandate : Mandate) (old row : ConnectionRow) : Prop :=
  row.id = old.id ∧ (old.state = .revoked → row.state = .revoked) ∧
    ∀ scope ∈ row.scopes, scope ∈ old.scopes ∨ mandate.widens row.id scope

def EnrollmentRow.GoesOn (old row : EnrollmentRow) : Prop :=
  row = { old with
    consumedAt := row.consumedAt
    reservedUntil := row.reservedUntil
    failedAttempts := row.failedAttempts
    lockedAt := row.lockedAt
    revokedAt := row.revokedAt } ∧
  (old.consumedAt ≠ none → row.consumedAt ≠ none) ∧
  (old.revokedAt ≠ none → row.revokedAt ≠ none)

def AuthorizationRequestRow.GoesOn (old row : AuthorizationRequestRow) : Prop :=
  row = { old with completedAt := row.completedAt } ∧
    (old.completedAt ≠ none → row.completedAt ≠ none)

def AuthorizationCodeRow.GoesOn (old row : AuthorizationCodeRow) : Prop :=
  row = { old with redeemedAt := row.redeemedAt } ∧
    (old.redeemedAt ≠ none → row.redeemedAt ≠ none)

def GrantRow.GoesOn (old row : GrantRow) : Prop :=
  row = { old with
    lastUsedAt := row.lastUsedAt
    revokedAt := row.revokedAt
    revokedReason := row.revokedReason } ∧
  (old.revokedAt ≠ none → row.revokedAt ≠ none)

def AccessTokenRow.GoesOn (old row : AccessTokenRow) : Prop :=
  row = { old with revokedAt := row.revokedAt }

/-- A token minted for a grant keeps within it. -/
def AccessTokenRow.Of (grant : GrantRow) (row : AccessTokenRow) : Prop :=
  row.grantId = grant.id ∧ row.connectionId = grant.connectionId ∧
    row.resource = grant.resource ∧ ∀ scope ∈ row.scopes, scope ∈ grant.scopes

theorem ConnectionRow.GoesOn.refl {mandate : Mandate} (row : ConnectionRow) :
    ConnectionRow.GoesOn mandate row row :=
  ⟨rfl, fun h => h, fun _ h => Or.inl h⟩

/-- A connection that went on and went on again has gone on: what the mandate allows at one step
it allows at all of them. -/
theorem ConnectionRow.GoesOn.trans {mandate : Mandate} (first second third : ConnectionRow)
    (hfirst : ConnectionRow.GoesOn mandate first second)
    (hsecond : ConnectionRow.GoesOn mandate second third) :
    ConnectionRow.GoesOn mandate first third := by
  obtain ⟨hid, hstate, hscopes⟩ := hfirst
  obtain ⟨hid', hstate', hscopes'⟩ := hsecond
  refine ⟨hid'.trans hid, hstate' ∘ hstate, ?_⟩
  intro scope hscope
  rcases hscopes' scope hscope with hscope | hwidens
  · rcases hscopes scope hscope with hscope | hwidens
    · exact Or.inl hscope
    · exact Or.inr (hid' ▸ hwidens)
  · exact Or.inr hwidens

theorem EnrollmentRow.GoesOn.refl (row : EnrollmentRow) : EnrollmentRow.GoesOn row row :=
  ⟨rfl, fun h => h, fun h => h⟩

/-- An enrollment that is consumed or revoked stays so over several steps, and its secret stays
the same. -/
theorem EnrollmentRow.GoesOn.trans (first second third : EnrollmentRow)
    (hfirst : EnrollmentRow.GoesOn first second)
    (hsecond : EnrollmentRow.GoesOn second third) : EnrollmentRow.GoesOn first third := by
  obtain ⟨hrow, hconsumed, hrevoked⟩ := hfirst
  obtain ⟨hrow', hconsumed', hrevoked'⟩ := hsecond
  refine ⟨?_, hconsumed' ∘ hconsumed, hrevoked' ∘ hrevoked⟩
  rw [hrow', hrow]

theorem AuthorizationRequestRow.GoesOn.refl (row : AuthorizationRequestRow) :
    AuthorizationRequestRow.GoesOn row row :=
  ⟨rfl, fun h => h⟩

/-- A transaction keeps what was asked for over several steps, and once it is completed it stays
completed. -/
theorem AuthorizationRequestRow.GoesOn.trans (first second third : AuthorizationRequestRow)
    (hfirst : AuthorizationRequestRow.GoesOn first second)
    (hsecond : AuthorizationRequestRow.GoesOn second third) :
    AuthorizationRequestRow.GoesOn first third := by
  refine ⟨?_, hsecond.2 ∘ hfirst.2⟩
  rw [hsecond.1, hfirst.1]

theorem AuthorizationCodeRow.GoesOn.refl (row : AuthorizationCodeRow) :
    AuthorizationCodeRow.GoesOn row row :=
  ⟨rfl, fun h => h⟩

/-- A redeemed code stays redeemed over several steps. -/
theorem AuthorizationCodeRow.GoesOn.trans (first second third : AuthorizationCodeRow)
    (hfirst : AuthorizationCodeRow.GoesOn first second)
    (hsecond : AuthorizationCodeRow.GoesOn second third) :
    AuthorizationCodeRow.GoesOn first third := by
  refine ⟨?_, hsecond.2 ∘ hfirst.2⟩
  rw [hsecond.1, hfirst.1]

theorem GrantRow.GoesOn.refl (row : GrantRow) : GrantRow.GoesOn row row :=
  ⟨rfl, fun h => h⟩

/-- A revoked grant stays revoked over several steps, with what it granted unchanged. -/
theorem GrantRow.GoesOn.trans (first second third : GrantRow)
    (hfirst : GrantRow.GoesOn first second) (hsecond : GrantRow.GoesOn second third) :
    GrantRow.GoesOn first third := by
  refine ⟨?_, hsecond.2 ∘ hfirst.2⟩
  rw [hsecond.1, hfirst.1]

theorem AccessTokenRow.GoesOn.refl (row : AccessTokenRow) : AccessTokenRow.GoesOn row row :=
  rfl

/-- A revoked access token stays revoked over several steps. -/
theorem AccessTokenRow.GoesOn.trans (first second third : AccessTokenRow)
    (hfirst : AccessTokenRow.GoesOn first second)
    (hsecond : AccessTokenRow.GoesOn second third) : AccessTokenRow.GoesOn first third := by
  rw [AccessTokenRow.GoesOn, hsecond, hfirst]

end Rows

namespace Server

variable {mandate : Mandate} {s t u : Server}

/-- Nothing of the connection can be used any more. -/
structure Revoked (s : Server) (connectionId : Id) : Prop where
  drawn : connectionId < s.nextId
  connections : ∀ row ∈ s.connections, row.id = connectionId → row.state = .revoked
  enrollments : ∀ row ∈ s.enrollments, row.connectionId = connectionId → row.revokedAt ≠ none
  grants : ∀ row ∈ s.grants, row.connectionId = connectionId → row.revokedAt ≠ none

/-- A row with one of the ids drawn on the way from `s` to `t`. -/
def DrawnBetween (s t : Server) (id : Id) : Prop :=
  s.nextId ≤ id ∧ id < t.nextId

/-- How the tables go on from one state to a later one: rows are kept or change in ways that
their own relation allows, and rows that were not there have ids drawn in between. -/
structure Evolves (mandate : Mandate) (s t : Server) : Prop where
  now_le : s.now ≤ t.now
  nextId_le : s.nextId ≤ t.nextId
  connections : Continues (ConnectionRow.GoesOn mandate) (fun row => DrawnBetween s t row.id)
    s.connections t.connections
  connectionIds : (∀ row ∈ s.connections, row.id < s.nextId) →
    (s.connections.map ConnectionRow.id).Nodup → (t.connections.map ConnectionRow.id).Nodup
  enrollments : Continues EnrollmentRow.GoesOn (fun _ => False) s.enrollments t.enrollments
  enrollmentIds :
    (t.enrollments.map EnrollmentRow.id).Sublist (s.enrollments.map EnrollmentRow.id)
  /-- An enrollment disappears only with its whole connection. -/
  enrollmentsKept : ∀ old ∈ s.enrollments,
    (∃ row ∈ t.enrollments, EnrollmentRow.GoesOn old row) ∨
      ∀ row ∈ t.enrollments, row.connectionId ≠ old.connectionId
  requests : Continues AuthorizationRequestRow.GoesOn
    (fun row => DrawnBetween s t row.id ∧ row.authenticatedAt = none) s.requests t.requests
  requestIds : (∀ row ∈ s.requests, row.id < s.nextId) →
    (s.requests.map AuthorizationRequestRow.id).Nodup →
      (t.requests.map AuthorizationRequestRow.id).Nodup
  codes : Continues AuthorizationCodeRow.GoesOn (fun _ => False) s.codes t.codes
  grants : Continues GrantRow.GoesOn (fun _ => False) s.grants t.grants
  accessTokens : Continues AccessTokenRow.GoesOn
    (fun row => ∃ grant ∈ s.grants, AccessTokenRow.Of grant row) s.accessTokens t.accessTokens
  history : ∃ events, t.history = events ++ s.history ∧
    ∀ event ∈ events, ∃ connectionId, event = .connectionRevoked connectionId ∧
      mandate.revokes connectionId ∧ t.Revoked connectionId

/-- Nothing at all is an evolution under every mandate. -/
theorem Evolves.refl (mandate : Mandate) (s : Server) : s.Evolves mandate s where
  now_le := Nat.le_refl _
  nextId_le := Nat.le_refl _
  connections := Continues.refl ConnectionRow.GoesOn.refl _
  connectionIds := fun _ h => h
  enrollments := Continues.refl EnrollmentRow.GoesOn.refl _
  enrollmentIds := List.Sublist.refl _
  enrollmentsKept := fun old hold => Or.inl ⟨old, hold, EnrollmentRow.GoesOn.refl old⟩
  requests := Continues.refl AuthorizationRequestRow.GoesOn.refl _
  requestIds := fun _ h => h
  codes := Continues.refl AuthorizationCodeRow.GoesOn.refl _
  grants := Continues.refl GrantRow.GoesOn.refl _
  accessTokens := Continues.refl AccessTokenRow.GoesOn.refl _
  history := ⟨[], rfl, by simp⟩

/-- A revoked connection stays revoked whatever evolves, which is why revocation is for good. -/
theorem Revoked.evolves {connectionId : Id} (hrevoked : s.Revoked connectionId)
    (hevolves : s.Evolves mandate t) : t.Revoked connectionId where
  drawn := Nat.lt_of_lt_of_le hrevoked.drawn hevolves.nextId_le
  connections := by
    apply hevolves.connections.forall _ _ hrevoked.connections
    · intro old row hgoesOn hold hid
      exact hgoesOn.2.1 (hold (hgoesOn.1 ▸ hid))
    · intro row hnew hid
      rw [hid] at hnew
      exact absurd hrevoked.drawn (Nat.not_lt.mpr hnew.1)
  enrollments := by
    apply hevolves.enrollments.forall _ (fun _ => False.elim) hrevoked.enrollments
    intro old row hgoesOn hold hid
    exact hgoesOn.2.2 (hold (by rw [hgoesOn.1] at hid; exact hid))
  grants := by
    apply hevolves.grants.forall _ (fun _ => False.elim) hrevoked.grants
    intro old row hgoesOn hold hid
    exact hgoesOn.2 (hold (by rw [hgoesOn.1] at hid; exact hid))

/-- An id drawn in the first part of a run was drawn in the run. -/
theorem DrawnBetween.left {id : Id} (h : DrawnBetween s t id) (hle : t.nextId ≤ u.nextId) :
    DrawnBetween s u id :=
  ⟨h.1, Nat.lt_of_lt_of_le h.2 hle⟩

/-- An id drawn in the second part of a run was drawn in the run. -/
theorem DrawnBetween.right {id : Id} (h : DrawnBetween t u id) (hle : s.nextId ≤ t.nextId) :
    DrawnBetween s u id :=
  ⟨Nat.le_trans hle h.1, h.2⟩

/-- The counter stays above every connection's id, so that new ones do not meet old ones. -/
theorem Evolves.connection_lt (h : s.Evolves mandate t)
    (hlt : ∀ row ∈ s.connections, row.id < s.nextId) :
    ∀ row ∈ t.connections, row.id < t.nextId := by
  apply h.connections.key_lt ConnectionRow.id _ (fun _ hnew => hnew.2) h.nextId_le hlt
  exact fun _ _ hgoesOn => hgoesOn.1

/-- The counter stays above every transaction's id. -/
theorem Evolves.request_lt (h : s.Evolves mandate t)
    (hlt : ∀ row ∈ s.requests, row.id < s.nextId) : ∀ row ∈ t.requests, row.id < t.nextId := by
  apply h.requests.key_lt AuthorizationRequestRow.id _ (fun _ hnew => hnew.1.2) h.nextId_le hlt
  intro old row hgoesOn
  rw [hgoesOn.1]

/-- Evolutions compose, which carries every statement about one step to whole runs. -/
theorem Evolves.trans (hfirst : s.Evolves mandate t) (hsecond : t.Evolves mandate u) :
    s.Evolves mandate u where
  now_le := Nat.le_trans hfirst.now_le hsecond.now_le
  nextId_le := Nat.le_trans hfirst.nextId_le hsecond.nextId_le
  connections := by
    apply Continues.trans ConnectionRow.GoesOn.trans _ _ hfirst.connections
      hsecond.connections
    · intro old row hnew hgoesOn
      rw [hgoesOn.1]
      exact hnew.left hsecond.nextId_le
    · intro row hnew
      exact hnew.right hfirst.nextId_le
  connectionIds := fun hlt hnodup =>
    hsecond.connectionIds (hfirst.connection_lt hlt) (hfirst.connectionIds hlt hnodup)
  enrollments := Continues.trans EnrollmentRow.GoesOn.trans (fun _ _ h _ => h)
    (fun _ h => h) hfirst.enrollments hsecond.enrollments
  enrollmentIds := hsecond.enrollmentIds.trans hfirst.enrollmentIds
  enrollmentsKept := by
    intro old hold
    rcases hfirst.enrollmentsKept old hold with ⟨middle, hmiddle, hgoesOn⟩ | hgone
    · rcases hsecond.enrollmentsKept middle hmiddle with ⟨row, hrow, hgoesOn'⟩ | hgone
      · exact Or.inl ⟨row, hrow, EnrollmentRow.GoesOn.trans _ _ _ hgoesOn hgoesOn'⟩
      · have hconnection : middle.connectionId = old.connectionId := by rw [hgoesOn.1]
        exact Or.inr fun row hrow => hconnection ▸ hgone row hrow
    · refine Or.inr ?_
      apply hsecond.enrollments.forall _ (fun _ => False.elim) hgone
      intro middle row hgoesOn hmiddle
      rw [hgoesOn.1]
      exact hmiddle
  requests := by
    apply Continues.trans AuthorizationRequestRow.GoesOn.trans _ _ hfirst.requests
      hsecond.requests
    · intro old row hnew hgoesOn
      rw [hgoesOn.1]
      exact ⟨hnew.1.left hsecond.nextId_le, hnew.2⟩
    · intro row hnew
      exact ⟨hnew.1.right hfirst.nextId_le, hnew.2⟩
  requestIds := fun hlt hnodup =>
    hsecond.requestIds (hfirst.request_lt hlt) (hfirst.requestIds hlt hnodup)
  codes := Continues.trans AuthorizationCodeRow.GoesOn.trans (fun _ _ h _ => h)
    (fun _ h => h) hfirst.codes hsecond.codes
  grants := Continues.trans GrantRow.GoesOn.trans (fun _ _ h _ => h)
    (fun _ h => h) hfirst.grants hsecond.grants
  accessTokens := by
    apply Continues.trans AccessTokenRow.GoesOn.trans _ _ hfirst.accessTokens
      hsecond.accessTokens
    · intro old row hnew hgoesOn
      rw [hgoesOn]
      exact hnew
    · intro row hnew
      obtain ⟨grant, hgrant, hof⟩ := hnew
      rcases hfirst.grants grant hgrant with ⟨old, hold, hgoesOn⟩ | hfalse
      · rw [hgoesOn.1] at hof
        exact ⟨old, hold, hof⟩
      · exact hfalse.elim
  history := by
    obtain ⟨events, hhistory, hevents⟩ := hfirst.history
    obtain ⟨events', hhistory', hevents'⟩ := hsecond.history
    refine ⟨events' ++ events, by rw [hhistory', hhistory, List.append_assoc], ?_⟩
    intro event hevent
    rcases List.mem_append.mp hevent with hevent | hevent
    · exact hevents' event hevent
    · obtain ⟨connectionId, heq, hrevokes, hrevoked⟩ := hevents event hevent
      exact ⟨connectionId, heq, hrevokes, hrevoked.evolves hsecond⟩

section Repository

/-- The tables that `Evolves` speaks of, the clock, and the next id. -/
def tracked (s : Server) :=
  (s.now, s.nextId, s.connections, s.enrollments, s.requests, s.codes, s.grants,
    s.accessTokens, s.history)

/-- A step on other tables evolves the tracked ones trivially, so that most of the service needs
no proof of its own. -/
theorem Evolves.of_tracked (h : t.tracked = s.tracked) : s.Evolves mandate t := by
  simp only [tracked, Prod.mk.injEq] at h
  obtain ⟨hnow, hnextId, hconnections, henrollments, hrequests, hcodes, hgrants,
    haccessTokens, hhistory⟩ := h
  have hrefl := Evolves.refl mandate s
  exact
    { now_le := hnow ▸ hrefl.now_le
      nextId_le := hnextId ▸ hrefl.nextId_le
      connections := by
        rw [hconnections]
        exact Continues.refl ConnectionRow.GoesOn.refl _
      connectionIds := hconnections ▸ hrefl.connectionIds
      enrollments := henrollments ▸ hrefl.enrollments
      enrollmentIds := henrollments ▸ hrefl.enrollmentIds
      enrollmentsKept := henrollments ▸ hrefl.enrollmentsKept
      requests := by
        rw [hrequests]
        exact Continues.refl AuthorizationRequestRow.GoesOn.refl _
      requestIds := hrequests ▸ hrefl.requestIds
      codes := hcodes ▸ hrefl.codes
      grants := hgrants ▸ hrefl.grants
      accessTokens := haccessTokens ▸ hrefl.accessTokens
      history := ⟨[], by simpa using hhistory, by simp⟩ }

theorem evolves_draw (count : Nat) :
    s.Evolves mandate { s with nextId := s.nextId + count } where
  __ := Evolves.refl mandate s
  nextId_le := Nat.le_add_right _ _
  history := ⟨[], rfl, by simp⟩
  connections := Continues.refl ConnectionRow.GoesOn.refl _
  requests := Continues.refl AuthorizationRequestRow.GoesOn.refl _

theorem evolves_advance (milliseconds : Nat) :
    s.Evolves mandate { s with now := s.now + milliseconds } where
  __ := Evolves.refl mandate s
  now_le := Nat.le_add_right _ _
  history := ⟨[], rfl, by simp⟩

/-- An update of connections that keeps ids, revocations and permissions. -/
theorem evolves_updateConnections {condition : ConnectionRow → Bool}
    {change : ConnectionRow → ConnectionRow}
    (hchange : ∀ row ∈ s.connections, condition row = true →
      ConnectionRow.GoesOn mandate row (change row))
    (hid : ∀ row, (change row).id = row.id) :
    s.Evolves mandate
      { s with connections := updateWhere s.connections condition change } where
  __ := Evolves.refl mandate s
  connections := Continues.updateWhere ConnectionRow.GoesOn.refl hchange
  connectionIds := by
    intro _ hnodup
    dsimp only
    rw [map_updateWhere ConnectionRow.id fun row _ => hid row]
    exact hnodup
  history := ⟨[], rfl, by simp⟩

/-- The administrator's switch and a revocation. A revoked connection is not switched back by
it. -/
theorem evolves_setConnectionState (id : Id) (state : ConnectionState)
    (reason : Option String) : s.Evolves mandate (s.setConnectionState id state reason) := by
  refine evolves_updateConnections ?_ fun _ => rfl
  intro row _ hcondition
  refine ⟨rfl, ?_, fun _ h => Or.inl h⟩
  intro hrevoked
  simp [hrevoked] at hcondition

theorem evolves_touchAuthorized (id : Id) : s.Evolves mandate (s.touchAuthorized id) :=
  evolves_updateConnections (fun _ _ _ => ⟨rfl, fun h => h, fun _ h => Or.inl h⟩)
    fun _ => rfl

theorem evolves_touchUsed (id : Id) : s.Evolves mandate (s.touchUsed id) :=
  evolves_updateConnections (fun _ _ _ => ⟨rfl, fun h => h, fun _ h => Or.inl h⟩)
    fun _ => rfl

/-- An update of a connection is an evolution when the mandate allows the permissions that it
adds. -/
theorem evolves_updateConnection (id : Id) (fields : ConnectionFields)
    (hwidens : ∀ row ∈ s.connections, row.id = id →
      ∀ scope ∈ fields.scopes.getD row.scopes, scope ∈ row.scopes ∨ mandate.widens id scope) :
    s.Evolves mandate (s.updateConnection id fields) := by
  refine evolves_updateConnections ?_ fun _ => rfl
  intro row hrow hcondition
  have hid : row.id = id := by simpa using hcondition
  subst hid
  exact ⟨rfl, fun h => h, hwidens row hrow rfl⟩

/-- A new connection under the next id, about which nothing has been said before. -/
theorem evolves_createConnection {row : ConnectionRow} (hid : row.id = s.nextId) :
    s.Evolves mandate { s.createConnection row with nextId := s.nextId + 1 } where
  __ := Evolves.refl mandate s
  nextId_le := Nat.le_succ _
  connections := by
    apply Continues.append ConnectionRow.GoesOn.refl
    intro new hnew
    rw [List.mem_singleton.mp hnew, hid]
    exact ⟨Nat.le_refl _, Nat.lt_succ_self _⟩
  connectionIds := by
    intro hlt hnodup
    simp only [createConnection, List.map_append, List.map_cons, List.map_nil]
    refine List.nodup_append.mpr ⟨hnodup, by simp, ?_⟩
    intro old hold new hnew heq
    obtain ⟨connection, hconnection, rfl⟩ := List.mem_map.mp hold
    rw [List.mem_singleton.mp hnew, hid] at heq
    exact Nat.lt_irrefl _ (heq ▸ hlt connection hconnection)
  requests := Continues.refl AuthorizationRequestRow.GoesOn.refl _
  history := ⟨[], rfl, by simp⟩

theorem sublist_map_filter {Row Column : Type} (column : Row → Column)
    (condition : Row → Bool) (rows : List Row) :
    ((rows.filter condition).map column).Sublist (rows.map column) :=
  List.filter_sublist.map column

theorem evolves_deleteConnection (id : Id) : s.Evolves mandate (s.deleteConnection id) where
  __ := Evolves.refl mandate s
  connections := Continues.filter ConnectionRow.GoesOn.refl
  connectionIds := fun _ hnodup => hnodup.sublist (sublist_map_filter _ _ _)
  enrollments := Continues.filter EnrollmentRow.GoesOn.refl
  enrollmentIds := sublist_map_filter _ _ _
  enrollmentsKept := by
    intro old hold
    by_cases hid : old.connectionId = id
    · refine Or.inr fun row hrow => ?_
      have hne : row.connectionId ≠ id := by simpa using (List.mem_filter.mp hrow).2
      rw [hid]
      exact hne
    · exact Or.inl ⟨old, List.mem_filter.mpr ⟨hold, by simpa using hid⟩,
        EnrollmentRow.GoesOn.refl old⟩
  codes := Continues.filter AuthorizationCodeRow.GoesOn.refl
  grants := Continues.filter GrantRow.GoesOn.refl
  accessTokens := Continues.filter AccessTokenRow.GoesOn.refl
  history := ⟨[], rfl, by simp⟩

/-- An update of enrollments evolves the tables when every row that it changes goes on. -/
theorem evolves_updateEnrollments {condition : EnrollmentRow → Bool}
    {change : EnrollmentRow → EnrollmentRow}
    (hchange : ∀ row, condition row = true → EnrollmentRow.GoesOn row (change row)) :
    s.Evolves mandate
      { s with enrollments := updateWhere s.enrollments condition change } where
  __ := Evolves.refl mandate s
  enrollments := Continues.updateWhere EnrollmentRow.GoesOn.refl fun row _ => hchange row
  enrollmentIds := by
    rw [map_updateWhere EnrollmentRow.id]
    intro row hcondition
    rw [(hchange row hcondition).1]
  enrollmentsKept := by
    intro old hold
    refine Or.inl ⟨_, mem_updateWhere_of_mem hold, ?_⟩
    by_cases hcondition : condition old = true
    · rw [if_pos hcondition]
      exact hchange old hcondition
    · rw [if_neg hcondition]
      exact EnrollmentRow.GoesOn.refl old
  history := ⟨[], rfl, by simp⟩

theorem evolves_revokeEnrollments (connectionId : Id) :
    s.Evolves mandate (s.revokeEnrollments connectionId) := by
  apply evolves_updateEnrollments
  intro row _
  exact ⟨rfl, fun h => h, fun _ => by simp⟩

/-- A failure is counted, and a lock is not lifted. -/
theorem evolves_recordFailedAttempt (enrollmentId : Id) :
    s.Evolves mandate (s.recordFailedAttempt enrollmentId) := by
  apply evolves_updateEnrollments
  intro row _
  exact ⟨rfl, fun h => h, fun h => h⟩

/-- The consumption is recorded for the one row that the code holds. -/
theorem evolves_consumeEnrollment (enrollmentId codeId : Id) :
    s.Evolves mandate (s.consumeEnrollment enrollmentId codeId).2 := by
  apply evolves_updateEnrollments
  intro row _
  exact ⟨rfl, fun _ => by simp, fun h => h⟩

/-- Clients are not tracked: their rows may be replaced at any time. -/
theorem evolves_upsertClient (client : OAuthClientRow) :
    s.Evolves mandate (s.upsertClient client) := by
  apply Evolves.of_tracked
  rw [upsertClient]
  split <;> rfl

/-- A new transaction under the next id, which nobody has signed in to. Its client, scopes and
resource are those of the query. -/
theorem evolves_createAuthorizationRequest {row : AuthorizationRequestRow}
    (hid : row.id = s.nextId) (hauthenticated : row.authenticatedAt = none) :
    s.Evolves mandate
      { s.createAuthorizationRequest row with nextId := s.nextId + 2 } where
  __ := Evolves.refl mandate s
  nextId_le := Nat.le_add_right _ _
  connections := Continues.refl ConnectionRow.GoesOn.refl _
  requests := by
    apply Continues.append AuthorizationRequestRow.GoesOn.refl
    intro new hnew
    rw [List.mem_singleton.mp hnew]
    exact ⟨⟨Nat.le_of_eq hid.symm, by rw [hid]; exact Nat.lt_add_of_pos_right (by decide)⟩,
      hauthenticated⟩
  requestIds := by
    intro hlt hnodup
    simp only [createAuthorizationRequest, List.map_append, List.map_cons, List.map_nil]
    refine List.nodup_append.mpr ⟨hnodup, by simp, ?_⟩
    intro old hold new hnew heq
    obtain ⟨request, hrequest, rfl⟩ := List.mem_map.mp hold
    rw [List.mem_singleton.mp hnew, hid] at heq
    exact Nat.lt_irrefl _ (heq ▸ hlt request hrequest)
  history := ⟨[], rfl, by simp⟩

/-- The transaction ends, and what it asked for stays. -/
theorem evolves_completeRequest (id : Id) : s.Evolves mandate (s.completeRequest id).2 where
  __ := Evolves.refl mandate s
  requests := by
    apply Continues.updateWhere AuthorizationRequestRow.GoesOn.refl
    intro row _ _
    exact ⟨rfl, fun _ => by simp⟩
  requestIds := by
    intro _ hnodup
    simp only [completeRequest]
    rw [map_updateWhere]
    · exact hnodup
    · exact fun _ _ => rfl
  history := ⟨[], rfl, by simp⟩

/-- The code is redeemed, and what it was bound to stays. -/
theorem evolves_redeemCode (id : Id) : s.Evolves mandate (s.redeemCode id).2 where
  __ := Evolves.refl mandate s
  codes := by
    apply Continues.updateWhere AuthorizationCodeRow.GoesOn.refl
    intro row _ _
    exact ⟨rfl, fun _ => by simp⟩
  history := ⟨[], rfl, by simp⟩

theorem evolves_touchGrant (id : Id) : s.Evolves mandate (s.touchGrant id) where
  __ := Evolves.refl mandate s
  grants := by
    apply Continues.updateWhere GrantRow.GoesOn.refl
    intro row _ _
    exact ⟨rfl, fun h => h⟩
  history := ⟨[], rfl, by simp⟩

/-- The grant ends together with its tokens. -/
theorem evolves_revokeGrant (id : Id) (reason : String) :
    s.Evolves mandate (s.revokeGrant id reason) where
  __ := Evolves.refl mandate s
  grants := by
    apply Continues.updateWhere GrantRow.GoesOn.refl
    intro row _ _
    exact ⟨rfl, fun _ => by simp⟩
  accessTokens := by
    apply Continues.updateWhere AccessTokenRow.GoesOn.refl
    intro row _ _
    rfl
  history := ⟨[], rfl, by simp⟩

/-- A fold of evolving steps, which is the form of the service's loops over rows. -/
theorem evolves_foldl {Item : Type} {next : Server → Item → Server}
    (hnext : ∀ (s : Server) (item : Item), s.Evolves mandate (next s item))
    (items : List Item) (s : Server) : s.Evolves mandate (items.foldl next s) := by
  induction items generalizing s with
  | nil => exact Evolves.refl mandate s
  | cons item items ih => exact (hnext s item).trans (ih (next s item))

theorem evolves_revokeAllGrantsForConnection (connectionId : Id) (reason : String) :
    s.Evolves mandate (s.revokeAllGrantsForConnection connectionId reason) := by
  apply evolves_foldl
  intro s grant
  by_cases hlive : grant.revokedAt = none
  · rw [if_pos hlive]
    exact evolves_revokeGrant _ _
  · rw [if_neg hlive]
    exact Evolves.refl mandate s

theorem evolves_revokeAccessTokenByHash (tokenHash : Secret) :
    s.Evolves mandate (s.revokeAccessTokenByHash tokenHash) := by
  rw [revokeAccessTokenByHash]
  split
  · exact Evolves.refl mandate s
  · exact
      { Evolves.refl mandate s with
        accessTokens := by
          apply Continues.updateWhere AccessTokenRow.GoesOn.refl
          intro row _ _
          rfl
        history := ⟨[], rfl, by simp⟩ }

/-- New tokens for a stored grant, under ids that are drawn for them. -/
theorem evolves_mintPair {grant : GrantRow} (hgrant : grant ∈ s.grants)
    {scopes : List McpScope} (hscopes : ∀ scope ∈ scopes, scope ∈ grant.scopes)
    (parent : Option Id) :
    s.Evolves mandate
      (s.mintPair grant.id grant.connectionId scopes grant.resource parent).2 where
  __ := Evolves.refl mandate s
  nextId_le := Nat.le_add_right _ _
  connections := Continues.refl ConnectionRow.GoesOn.refl _
  requests := Continues.refl AuthorizationRequestRow.GoesOn.refl _
  accessTokens := by
    apply Continues.append AccessTokenRow.GoesOn.refl
    intro row hrow
    rw [List.mem_singleton.mp hrow]
    exact ⟨grant, hgrant, rfl, rfl, rfl, hscopes⟩
  history := ⟨[], rfl, by simp⟩

/-- Rows that disappear are an evolution: what is said about a table is said of the rows in it. -/
theorem evolves_purgeExpired (horizon : Time) :
    s.Evolves mandate (s.purgeExpired horizon) where
  __ := Evolves.refl mandate s
  requests := Continues.filter AuthorizationRequestRow.GoesOn.refl
  requestIds := fun _ hnodup => hnodup.sublist (sublist_map_filter _ _ _)
  codes := Continues.filter AuthorizationCodeRow.GoesOn.refl
  accessTokens := Continues.filter AccessTokenRow.GoesOn.refl
  history := ⟨[], rfl, by simp⟩

end Repository

end Server

end Mcp

end MailPanel
