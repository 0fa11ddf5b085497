import MailPanel.McpSteps

/-
Codes and setup passwords are used once: at most one grant for a code, and at most
one for an enrollment between two of its issuances.
-/

namespace MailPanel

namespace Mcp

open RowTable

namespace Event

/-- The event gives a grant for this code. -/
def grantsCode (codeId : Id) : Event → Bool
  | .grantIssued _ code _ => code.id = codeId
  | _ => false

/-- The event gives a grant for a code that this enrollment backs. -/
def grantsEnrollment (enrollmentId : Id) : Event → Bool
  | .grantIssued _ code _ => code.enrollmentId = enrollmentId
  | _ => false

/-- The enrollment gets a new setup password. -/
def startsIssuance (enrollmentId : Id) : Event → Bool
  | .enrollmentIssued id _ | .enrollmentReset id _ => id = enrollmentId
  | _ => false

end Event

/-- The events since the enrollment last got a setup password, newest first. -/
def sinceIssuance (enrollmentId : Id) (history : List Event) : List Event :=
  history.takeWhile fun event => ¬ event.startsIssuance enrollmentId

theorem sinceIssuance_cons (enrollmentId : Id) (event : Event) (history : List Event) :
    sinceIssuance enrollmentId (event :: history) =
      if event.startsIssuance enrollmentId then []
      else event :: sinceIssuance enrollmentId history := by
  by_cases hstarts : event.startsIssuance enrollmentId
  · simp [sinceIssuance, hstarts]
  · simp [sinceIssuance, hstarts]

/-- The grants of an enrollment since it last got a setup password. -/
def grantsSince (enrollmentId : Id) (history : List Event) : Nat :=
  (sinceIssuance enrollmentId history).countP fun event => event.grantsEnrollment enrollmentId

theorem grantsSince_cons (enrollmentId : Id) (event : Event) (history : List Event) :
    grantsSince enrollmentId (event :: history) =
      if event.startsIssuance enrollmentId then 0
      else grantsSince enrollmentId history +
        if event.grantsEnrollment enrollmentId then 1 else 0 := by
  rw [grantsSince, sinceIssuance_cons]
  by_cases hstarts : event.startsIssuance enrollmentId
  · simp [hstarts]
  · simp [hstarts, grantsSince, List.countP_cons]

/-- The event gives a grant. -/
def Event.isGrant : Event → Bool
  | .grantIssued _ _ _ => true
  | _ => false

theorem Event.grantsEnrollment_eq_false {event : Event} (hevent : event.isGrant = false)
    (enrollmentId : Id) : event.grantsEnrollment enrollmentId = false := by
  cases event <;> first | rfl | cases hevent

theorem Event.grantsCode_eq_false {event : Event} (hevent : event.isGrant = false)
    (codeId : Id) : event.grantsCode codeId = false := by
  cases event <;> first | rfl | cases hevent

/-- Other events start a new issuance or leave the count alone. -/
theorem grantsSince_append (enrollmentId : Id) {events : List Event} (history : List Event)
    (hevents : ∀ event ∈ events, event.isGrant = false) :
    grantsSince enrollmentId (events ++ history) =
      if events.any fun event => event.startsIssuance enrollmentId then 0
      else grantsSince enrollmentId history := by
  induction events with
  | nil => simp
  | cons event events ih =>
      have hrest := ih fun other hother => hevents other (List.mem_cons_of_mem event hother)
      have hgrant := Event.grantsEnrollment_eq_false (hevents event List.mem_cons_self)
        enrollmentId
      rw [List.cons_append, grantsSince_cons, hrest, hgrant]
      by_cases hstarts : event.startsIssuance enrollmentId
      · simp [hstarts]
      · simp [hstarts]

theorem grantsSince_suffixes {events history : List Event}
    (hevents : ∀ event ∈ events, event.isGrant = false)
    (hhistory : ∀ enrollmentId older, older <:+ history → grantsSince enrollmentId older ≤ 1) :
    ∀ enrollmentId older, older <:+ events ++ history →
      grantsSince enrollmentId older ≤ 1 := by
  intro enrollmentId older holder
  induction events with
  | nil => exact hhistory enrollmentId older holder
  | cons event events ih =>
      rw [List.cons_append] at holder
      rcases List.suffix_cons_iff.mp holder with rfl | holder
      · rw [← List.cons_append, grantsSince_append enrollmentId history hevents]
        split
        · exact Nat.zero_le 1
        · exact hhistory enrollmentId history (List.suffix_refl history)
      · exact ih (fun other hother => hevents other (List.mem_cons_of_mem event hother)) holder

/-- A stretch of history in which the enrollment gets no new setup password. -/
theorem countP_le_grantsSince {enrollmentId : Id} {segment older : List Event}
    (hsegment : ∀ event ∈ segment, event.startsIssuance enrollmentId = false) :
    (segment.countP fun event => event.grantsEnrollment enrollmentId) ≤
      grantsSince enrollmentId (segment ++ older) := by
  rw [grantsSince, sinceIssuance, List.takeWhile_append_of_pos]
  · rw [List.countP_append]
    exact Nat.le_add_right _ _
  · intro event hevent
    simp [hsegment event hevent]

/-- The setup password of the row can be used at this time. -/
structure EnrollmentRow.UsableAt (row : EnrollmentRow) (now : Time) : Prop where
  unlocked : row.lockedAt = none
  unconsumed : row.consumedAt = none
  unrevoked : row.revokedAt = none
  unexpired : now < row.expiresAt

/-- What the tables and the history say together about grants: a code is the one that was
issued, one with a grant is marked as redeemed, and an enrollment with a grant since its last
setup password is consumed. -/
structure Server.OneGrant (env : Env) (s : Server) : Prop where
  codes_issued : ∀ row ∈ s.codes, ∃ issued, .codeIssued issued ∈ s.history ∧
    row = { issued with redeemedAt := row.redeemedAt, grantId := row.grantId }
  grants_drawn : ∀ grant code codeVerifier, .grantIssued grant code codeVerifier ∈ s.history →
    code.id < s.nextId ∧ grant.id < s.nextId
  codes_granted : ∀ grant code codeVerifier,
    .grantIssued grant code codeVerifier ∈ s.history →
      ∀ row ∈ s.codes, row.id = code.id →
        row.redeemedAt ≠ none ∧ row.grantId = some grant.id
  perCode : ∀ codeId, (s.history.countP fun event => event.grantsCode codeId) ≤ 1
  perIssuance : ∀ enrollmentId older, older <:+ s.history →
    grantsSince enrollmentId older ≤ 1
  consumed : ∀ enrollmentId, 0 < grantsSince enrollmentId s.history →
    ∀ row ∈ s.enrollments, row.id = enrollmentId → row.consumedAt ≠ none
  bound : ∀ grant code codeVerifier, .grantIssued grant code codeVerifier ∈ s.history →
    ∃ issued, .codeIssued issued ∈ s.history ∧ issued.id = code.id ∧
      grant.clientId = issued.clientId ∧ grant.redirectUri = issued.redirectUri ∧
      verifyPkceS256 env codeVerifier issued.codeChallenge = true ∧
      grant.connectionId = issued.connectionId

namespace Server

variable {env : Env} {s t : Server}

/-- What a step that gives no grant may do: a new code is on record, and a setup
password is forgotten only where a new one is. -/
structure Ungranting (s t : Server) (events : List Event) : Prop where
  nextId_le : s.nextId ≤ t.nextId
  history : t.history = events ++ s.history
  events_ungranting : ∀ event ∈ events, event.isGrant = false
  codes : Continues AuthorizationCodeRow.GoesOn
    (fun row => .codeIssued row ∈ events ∧ s.nextId ≤ row.id) s.codes t.codes
  enrollments : ∀ row ∈ t.enrollments,
    (∃ event ∈ events, event.startsIssuance row.id = true) ∨
      ∃ old ∈ s.enrollments, row.id = old.id ∧
        (old.consumedAt ≠ none → row.consumedAt ≠ none)

theorem Ungranting.mem_history {events : List Event} (h : s.Ungranting t events)
    {event : Event} (hevent : event ∈ s.history) : event ∈ t.history := by
  rw [h.history]
  exact List.mem_append_right events hevent

theorem Ungranting.grant_mem {events : List Event} (h : s.Ungranting t events)
    {grant : GrantRow} {code : AuthorizationCodeRow} {codeVerifier : String}
    (hgrant : .grantIssued grant code codeVerifier ∈ t.history) :
    .grantIssued grant code codeVerifier ∈ s.history := by
  rw [h.history] at hgrant
  rcases List.mem_append.mp hgrant with hgrant | hgrant
  · cases h.events_ungranting _ hgrant
  · exact hgrant

theorem OneGrant.ungranting {events : List Event} (hs : s.OneGrant env)
    (h : s.Ungranting t events) : t.OneGrant env where
  codes_issued := by
    intro row hrow
    rcases h.codes row hrow with ⟨old, hold, hgoesOn⟩ | ⟨hissued, -⟩
    · obtain ⟨issued, hissued, heq⟩ := hs.codes_issued old hold
      refine ⟨issued, h.mem_history hissued, ?_⟩
      rw [hgoesOn.1, heq]
    · refine ⟨row, ?_, rfl⟩
      rw [h.history]
      exact List.mem_append_left _ hissued
  grants_drawn := by
    intro grant code codeVerifier hgrant
    obtain ⟨hcode, hid⟩ := hs.grants_drawn grant code codeVerifier (h.grant_mem hgrant)
    exact ⟨Nat.lt_of_lt_of_le hcode h.nextId_le, Nat.lt_of_lt_of_le hid h.nextId_le⟩
  codes_granted := by
    intro grant code codeVerifier hgrant
    have hbefore := h.grant_mem hgrant
    apply h.codes.forall _ _ (hs.codes_granted grant code codeVerifier hbefore)
    · intro old row hgoesOn hold hid
      have hsame : old.id = code.id := by rw [hgoesOn.1] at hid; exact hid
      refine ⟨hgoesOn.2 (hold hsame).1, ?_⟩
      rw [hgoesOn.1]
      exact (hold hsame).2
    · intro row hnew hid
      have hdrawn := (hs.grants_drawn grant code codeVerifier hbefore).1
      rw [hid] at hnew
      exact absurd hdrawn (Nat.not_lt.mpr hnew.2)
  perCode := by
    intro codeId
    have hnone : (events.countP fun event => event.grantsCode codeId) = 0 := by
      apply List.countP_eq_zero.mpr
      intro event hevent
      simp [Event.grantsCode_eq_false (h.events_ungranting event hevent)]
    rw [h.history, List.countP_append, hnone, Nat.zero_add]
    exact hs.perCode codeId
  perIssuance := by
    rw [h.history]
    exact grantsSince_suffixes h.events_ungranting hs.perIssuance
  consumed := by
    intro enrollmentId hpos row hrow hid
    rw [h.history, grantsSince_append enrollmentId s.history h.events_ungranting] at hpos
    by_cases hstarts : events.any fun event => event.startsIssuance enrollmentId
    · simp [hstarts] at hpos
    · simp only [hstarts, Bool.false_eq_true, ↓reduceIte] at hpos
      rcases h.enrollments row hrow with ⟨event, hevent, hstart⟩ | ⟨old, hold, hsame, hkept⟩
      · rw [hid] at hstart
        exact absurd (List.any_eq_true.mpr ⟨event, hevent, hstart⟩) hstarts
      · exact hkept (hs.consumed enrollmentId hpos old hold (hsame.symm.trans hid))
  bound := by
    intro grant code codeVerifier hgrant
    obtain ⟨issued, hissued, hbound⟩ :=
      hs.bound grant code codeVerifier (h.grant_mem hgrant)
    exact ⟨issued, h.mem_history hissued, hbound⟩

theorem ungranting_evolves {mandate : Mandate} (h : s.Evolves mandate t) :
    ∃ events, s.Ungranting t events := by
  obtain ⟨events, hhistory, hevents⟩ := h.history
  exact ⟨events,
    { nextId_le := h.nextId_le
      history := hhistory
      events_ungranting := by
        intro event hevent
        obtain ⟨connectionId, rfl, -⟩ := hevents event hevent
        rfl
      codes := h.codes.mono (fun _ _ hgoesOn => hgoesOn) (fun _ => False.elim)
      enrollments := by
        intro row hrow
        rcases h.enrollments row hrow with ⟨old, hold, hgoesOn⟩ | hfalse
        · exact Or.inr ⟨old, hold, by rw [hgoesOn.1], hgoesOn.2.1⟩
        · exact hfalse.elim }⟩

theorem OneGrant.evolves {mandate : Mandate} (hs : s.OneGrant env)
    (h : s.Evolves mandate t) : t.OneGrant env := by
  obtain ⟨events, hungranting⟩ := ungranting_evolves h
  exact hs.ungranting hungranting

theorem ungranting_showConsent (requestId connectionId enrollmentId : Id)
    (scopes : List McpScope) :
    ∃ events, s.Ungranting (s.showConsent requestId connectionId enrollmentId scopes)
      events := by
  have hhistory := showConsent_history s requestId connectionId enrollmentId scopes
  obtain ⟨requests, history, heq⟩ :=
    showConsent_kept s requestId connectionId enrollmentId scopes
  rw [heq] at hhistory ⊢
  refine ⟨(if 0 < changes s.requests (openRequest requestId) then
    [.authenticated requestId enrollmentId connectionId] else []) ++
      [.consentShown requestId connectionId scopes], ?_⟩
  exact
    { nextId_le := Nat.le_refl _
      history := by simpa using hhistory
      events_ungranting := by
        intro event hevent
        split at hevent
        · rcases List.mem_cons.mp hevent with rfl | hevent
          · rfl
          · rw [List.mem_singleton.mp hevent]
            rfl
        · rw [List.mem_singleton.mp hevent]
          rfl
      codes := Continues.refl AuthorizationCodeRow.GoesOn.refl _
      enrollments := fun row hrow => Or.inr ⟨row, hrow, rfl, fun h => h⟩ }

theorem ungranting_issued (input : IssueCodeInput) :
    s.Ungranting (s.issued input) [.codeIssued (s.codeRow input)] where
  nextId_le := Nat.le_add_right _ _
  history := rfl
  events_ungranting := by
    intro event hevent
    rw [List.mem_singleton.mp hevent]
    rfl
  codes := by
    apply Continues.append AuthorizationCodeRow.GoesOn.refl
    intro row hrow
    rw [List.mem_singleton.mp hrow]
    exact ⟨List.mem_cons_self, Nat.le_refl _⟩
  enrollments := by
    intro row hrow
    obtain ⟨old, hold, hrow⟩ := exists_of_mem_updateWhere hrow
    refine Or.inr ⟨old, hold, ?_⟩
    rw [hrow]
    split
    · exact ⟨rfl, fun h => h⟩
    · exact ⟨rfl, fun h => h⟩

theorem ungranting_resetEnrollment (enrollmentId : Id) (passwordHash : Secret)
    (expiresAt : Time) :
    ∃ events, s.Ungranting (s.resetEnrollment enrollmentId passwordHash expiresAt)
      events := by
  obtain ⟨history, heq⟩ := resetEnrollment_kept s enrollmentId passwordHash expiresAt
  cases hfind : s.findEnrollmentById enrollmentId with
  | none =>
      have hhistory : (s.resetEnrollment enrollmentId passwordHash expiresAt).history =
          s.history := by
        simp [resetEnrollment, hfind]
      rw [heq] at hhistory ⊢
      refine ⟨[], ?_⟩
      exact
        { nextId_le := Nat.le_refl _
          history := hhistory
          events_ungranting := by simp
          codes := Continues.refl AuthorizationCodeRow.GoesOn.refl _
          enrollments := by
            intro row hrow
            rcases mem_updateWhere.mp hrow with ⟨hrow, -⟩ | ⟨old, hold, hid, -⟩
            · exact Or.inr ⟨row, hrow, rfl, fun h => h⟩
            · exact absurd (by simpa using hid) (lookup_eq_none hfind hold) }
  | some found =>
      have hhistory := resetEnrollment_history hfind passwordHash expiresAt
      rw [heq] at hhistory ⊢
      refine ⟨[.enrollmentReset enrollmentId found.connectionId], ?_⟩
      exact
        { nextId_le := Nat.le_refl _
          history := hhistory
          events_ungranting := by
            intro event hevent
            rw [List.mem_singleton.mp hevent]
            rfl
          codes := Continues.refl AuthorizationCodeRow.GoesOn.refl _
          enrollments := by
            intro row hrow
            rcases mem_updateWhere.mp hrow with ⟨hrow, -⟩ | ⟨old, hold, hid, rfl⟩
            · exact Or.inr ⟨row, hrow, rfl, fun h => h⟩
            · refine Or.inl ⟨_, List.mem_cons_self, ?_⟩
              have hold : old.id = enrollmentId := by simpa using hid
              simp [Event.startsIssuance, resetRow, hold] }

theorem ungranting_storeEnrollment (connectionId : Id) (username : Nat)
    (passwordHash : Secret) (expiresAt : Time) :
    s.Ungranting (s.storeEnrollment connectionId username passwordHash expiresAt)
      [.enrollmentIssued s.nextId connectionId] where
  nextId_le := Nat.le_succ _
  history := rfl
  events_ungranting := by
    intro event hevent
    rw [List.mem_singleton.mp hevent]
    rfl
  codes := Continues.refl AuthorizationCodeRow.GoesOn.refl _
  enrollments := by
    intro row hrow
    rcases List.mem_append.mp hrow with hrow | hrow
    · obtain ⟨old, hold, hrow⟩ := exists_of_mem_updateWhere hrow
      refine Or.inr ⟨old, hold, ?_⟩
      rw [hrow]
      split
      · exact ⟨rfl, fun h => h⟩
      · exact ⟨rfl, fun h => h⟩
    · refine Or.inl ⟨_, List.mem_cons_self, ?_⟩
      rw [List.mem_singleton.mp hrow]
      simp [Event.startsIssuance]

theorem ungranting_record {event : Event} (hevent : event.isGrant = false) :
    s.Ungranting (s.record event) [event] where
  nextId_le := Nat.le_refl _
  history := rfl
  events_ungranting := by
    intro other hother
    rw [List.mem_singleton.mp hother]
    exact hevent
  codes := Continues.refl AuthorizationCodeRow.GoesOn.refl _
  enrollments := fun row hrow => Or.inr ⟨row, hrow, rfl, fun h => h⟩

theorem ungranting_noted (operation : IssueOperation) (connectionId : Id) :
    ∃ events, s.Ungranting (s.noted operation connectionId) events := by
  cases operation with
  | create => exact ungranting_evolves (Evolves.refl Mandate.none s)
  | reissue => exact ungranting_evolves (Evolves.refl Mandate.none s)
  | rotate => exact ⟨_, ungranting_record rfl⟩

/-- No grant for a code, or for the setup password behind it, while both are unused. -/
theorem OneGrant.unused {input : ExchangeInput} {code : AuthorizationCodeRow}
    {codeVerifier : String} {scopes : List McpScope} (hs : s.OneGrant env)
    (hredemption : s.Redemption env input code codeVerifier scopes) :
    (s.history.countP fun event => event.grantsCode code.id) = 0 ∧
      grantsSince code.enrollmentId s.history = 0 := by
  constructor
  · apply List.countP_eq_zero.mpr
    intro event hevent hgrants
    cases event with
    | grantIssued grant granted verifier =>
        have hid : code.id = granted.id := by simpa [Event.grantsCode, eq_comm] using hgrants
        exact (hs.codes_granted grant granted verifier hevent code hredemption.mem hid).1
          hredemption.unredeemed
    | _ => cases hgrants
  · obtain ⟨row, hrow, hconsumable⟩ := hredemption.consumable
    simp only [Server.consumable, decide_eq_true_eq] at hconsumable
    by_contra hpos
    exact hs.consumed code.enrollmentId (Nat.pos_of_ne_zero hpos) row hrow hconsumable.1
      hconsumable.2.2.1

/-- After the redemption no row of the code is unredeemed. -/
theorem redeemed_codes (code : AuthorizationCodeRow) :
    ∀ row ∈ (s.redeemed code).codes, row.id = code.id → row.redeemedAt ≠ none := by
  intro row hrow hid
  rcases mem_updateWhere.mp hrow with ⟨-, hcondition⟩ | ⟨old, -, -, rfl⟩
  · intro hnone
    simp [redeemable, hid, hnone] at hcondition
  · simp

/-- After the redemption the setup password behind the code is consumed. -/
theorem Redemption.consumed {input : ExchangeInput} {code : AuthorizationCodeRow}
    {codeVerifier : String} {scopes : List McpScope} (hs : s.WellFormed)
    (hredemption : s.Redemption env input code codeVerifier scopes) :
    ∀ row ∈ (s.redeemed code).enrollments, row.id = code.enrollmentId →
      row.consumedAt ≠ none := by
  intro row hrow hid
  obtain ⟨found, hfound, hconsumable⟩ := hredemption.consumable
  rcases mem_updateWhere.mp hrow with ⟨hold, hcondition⟩ | ⟨old, -, -, rfl⟩
  · have hfoundId : found.id = code.enrollmentId := by
      simp only [Server.consumable, decide_eq_true_eq] at hconsumable
      exact hconsumable.1
    have hsame : row = found := eq_of_key_eq hs.enrollment_nodup hold hfound
      (hid.trans hfoundId.symm)
    rw [hsame, hconsumable] at hcondition
    cases hcondition
  · simp

theorem exchangeRefusal_none {input : ExchangeInput} {codeVerifier : String}
    {code : AuthorizationCodeRow}
    (haccepted : s.exchangeRefusal env input codeVerifier code = none) :
    code.clientId = input.client.clientId ∧ s.now < code.expiresAt ∧
      input.redirectUri = some code.redirectUri ∧
      verifyPkceS256 env codeVerifier code.codeChallenge = true := by
  simp only [exchangeRefusal] at haccepted
  split at haccepted
  · cases haccepted
  · rename_i hclient
    split at haccepted
    · cases haccepted
    · rename_i hexpires
      split at haccepted
      · cases haccepted
      · rename_i hredirect
        split at haccepted
        · cases haccepted
        · rename_i hpkce
          exact ⟨Decidable.not_not.mp hclient, Nat.lt_of_not_le hexpires,
            Decidable.not_not.mp hredirect, by simpa using hpkce⟩

/-- The one step that gives a grant. By then the code has been marked and the enrollment
consumed, in the same segment, so that no second one can. -/
theorem OneGrant.storeGrant {input : ExchangeInput} {code : AuthorizationCodeRow}
    {codeVerifier : String} {scopes : List McpScope} (hwellFormed : s.WellFormed)
    (hs : s.OneGrant env)
    (hredemption : s.Redemption env input code codeVerifier scopes) :
    ((s.redeemed code).storeGrant input.client code scopes codeVerifier).OneGrant env := by
  obtain ⟨hcodeUnused, henrollmentUnused⟩ := hs.unused hredemption
  have hredeemed : (s.redeemed code).OneGrant env :=
    hs.evolves (evolves_redeemed code : s.Evolves Mandate.none _)
  have hhistory : ((s.redeemed code).storeGrant input.client code scopes
      codeVerifier).history = .grantIssued ((s.redeemed code).grantRow input.client code scopes)
        code codeVerifier :: s.history := rfl
  have hold : ∀ grant granted verifier, .grantIssued grant granted verifier ∈ s.history →
      granted.id ≠ code.id := by
    intro grant granted verifier hgrant hid
    have hzero := List.countP_eq_zero.mp hcodeUnused _ hgrant
    simp [Event.grantsCode, hid] at hzero
  have hnew : ∀ {grant granted verifier}, .grantIssued grant granted verifier ∈
      ((s.redeemed code).storeGrant input.client code scopes codeVerifier).history →
      (grant = (s.redeemed code).grantRow input.client code scopes ∧ granted = code ∧
        verifier = codeVerifier) ∨ .grantIssued grant granted verifier ∈ s.history := by
    intro grant granted verifier hgrant
    rcases List.mem_cons.mp hgrant with heq | hgrant
    · injection heq with hgrant hcode hverifier
      exact Or.inl ⟨hgrant, hcode, hverifier⟩
    · exact Or.inr hgrant
  exact
    { codes_issued := by
        intro row hrow
        obtain ⟨old, hmem, hrow⟩ := exists_of_mem_updateWhere hrow
        obtain ⟨issued, hissued, heq⟩ := hredeemed.codes_issued old hmem
        refine ⟨issued, List.mem_cons_of_mem _ hissued, ?_⟩
        rw [hrow]
        split
        · rw [heq]
        · exact heq
      grants_drawn := by
        intro grant granted verifier hgrant
        rcases hnew hgrant with ⟨rfl, rfl, -⟩ | hgrant
        · exact ⟨Nat.lt_succ_of_lt (hwellFormed.code_lt _ hredemption.mem),
            Nat.lt_succ_self _⟩
        · obtain ⟨hcode, hgrant⟩ := hs.grants_drawn grant granted verifier hgrant
          exact ⟨Nat.lt_succ_of_lt hcode, Nat.lt_succ_of_lt hgrant⟩
      codes_granted := by
        intro grant granted verifier hgrant row hrow hid
        obtain ⟨old, hmem, hrow⟩ := exists_of_mem_updateWhere hrow
        have hsame : row.id = old.id := by
          rw [hrow]
          split <;> rfl
        rcases hnew hgrant with ⟨rfl, rfl, -⟩ | hgrant
        · have hcode : old.id = granted.id := hsame.symm.trans hid
          rw [hrow, if_pos (by simpa using hcode)]
          exact ⟨redeemed_codes granted old hmem hcode, rfl⟩
        · have hne : old.id ≠ code.id := by
            rw [← hsame, hid]
            exact hold grant granted verifier hgrant
          rw [hrow, if_neg (by simpa using hne)]
          exact hredeemed.codes_granted grant granted verifier hgrant old hmem
            (hsame.symm.trans hid)
      perCode := by
        intro codeId
        have hcount := hs.perCode codeId
        rw [hhistory, List.countP_cons]
        by_cases hid : code.id = codeId
        · subst hid
          rw [hcodeUnused]
          split <;> omega
        · simp only [Event.grantsCode, hid, decide_false, Bool.false_eq_true, ↓reduceIte,
            Nat.add_zero]
          exact hcount
      perIssuance := by
        intro enrollmentId older holder
        rw [hhistory] at holder
        rcases List.suffix_cons_iff.mp holder with rfl | holder
        · rw [grantsSince_cons]
          simp only [Event.startsIssuance, Bool.false_eq_true, ↓reduceIte]
          by_cases hid : code.enrollmentId = enrollmentId
          · subst hid
            rw [henrollmentUnused]
            split <;> omega
          · simp only [Event.grantsEnrollment, hid, decide_false, Bool.false_eq_true,
              ↓reduceIte, Nat.add_zero]
            exact hs.perIssuance enrollmentId _ (List.suffix_refl _)
        · exact hs.perIssuance enrollmentId older holder
      consumed := by
        intro enrollmentId hpos row hrow hid
        by_cases hcode : code.enrollmentId = enrollmentId
        · exact hredemption.consumed hwellFormed row hrow (hid.trans hcode.symm)
        · have hbefore : 0 < grantsSince enrollmentId s.history := by
            rw [hhistory, grantsSince_cons] at hpos
            simpa [Event.startsIssuance, Event.grantsEnrollment, hcode] using hpos
          exact hredeemed.consumed enrollmentId hbefore row hrow hid
      bound := by
        intro grant granted verifier hgrant
        rcases hnew hgrant with ⟨rfl, rfl, rfl⟩ | hgrant
        · obtain ⟨issued, hissued, heq⟩ := hs.codes_issued _ hredemption.mem
          obtain ⟨hclient, -, -, hpkce⟩ := exchangeRefusal_none hredemption.accepted
          refine ⟨issued, List.mem_cons_of_mem _ hissued, ?_⟩
          rw [heq] at hclient hpkce ⊢
          exact ⟨rfl, hclient.symm, rfl, hpkce, rfl⟩
        · obtain ⟨issued, hissued, hbound⟩ := hs.bound grant granted verifier hgrant
          exact ⟨issued, List.mem_cons_of_mem _ hissued, hbound⟩ }

theorem enrollmentProblem_none {enrollment : EnrollmentRow}
    {request : AuthorizationRequestRow}
    (hproblem : s.enrollmentProblem enrollment request = none) :
    enrollment.UsableAt s.now := by
  simp only [enrollmentProblem] at hproblem
  split at hproblem
  · cases hproblem
  · rename_i hrevoked
    split at hproblem
    · cases hproblem
    · rename_i hlocked
      split at hproblem
      · cases hproblem
      · rename_i hconsumed
        split at hproblem
        · cases hproblem
        · rename_i hexpired
          exact ⟨Decidable.not_not.mp hlocked, Decidable.not_not.mp hconsumed,
            Decidable.not_not.mp hrevoked, Nat.lt_of_not_le hexpired⟩

/-- Evolving puts no code on record. -/
theorem Evolves.codeIssued_mem {mandate : Mandate} (h : s.Evolves mandate t)
    {code : AuthorizationCodeRow} (hcode : .codeIssued code ∈ t.history) :
    .codeIssued code ∈ s.history := by
  obtain ⟨events, hhistory, hevents⟩ := h.history
  rw [hhistory] at hcode
  rcases List.mem_append.mp hcode with hcode | hcode
  · obtain ⟨connectionId, heq, -⟩ := hevents _ hcode
    cases heq
  · exact hcode

end Server

namespace System

variable {env : Env} {system next : System} {label : Label}

theorem Sound.oneGrant_stepped (hsystem : system.Sound)
    (hinvariant : system.server.OneGrant env) (hstep : Stepped env system label next) :
    next.server.OneGrant env := by
  cases hstep with
  | evolved hevolves _ => exact hinvariant.evolves hevolves
  | @signedIn _ wait =>
      have hattempt : system.server.Evolves Mandate.none
          (system.server.recordAttempt wait.ip wait.form.username true) :=
        Server.evolves_recordAttempt _ _ _
      obtain ⟨events, hconsent⟩ := Server.ungranting_showConsent _ _ _ _
      exact (hinvariant.evolves hattempt).ungranting hconsent
  | approved _ _ hevolves _ =>
      exact (hinvariant.ungranting (Server.ungranting_issued _)).evolves hevolves
  | @redeemed _ _ _ _ form client code codeVerifier scopes _ _ hredemption =>
      have hgranted : Server.Evolves Mandate.none _
          ((system.server.redeemed code).grantCode client code scopes codeVerifier).2 :=
        Server.evolves_grantCode client code scopes codeVerifier
      exact (hinvariant.storeGrant hsystem.server hredemption).evolves hgranted
  | @hashed _ operation pending _ htask =>
      rcases Server.finishHash_cases operation pending
          (hsystem.newUsername _ (List.mem_of_getElem? htask) operation pending rfl) with
        heq | ⟨previous, -, -, heq⟩ | ⟨-, heq⟩
      · rw [heq]
        exact hinvariant
      · rw [heq]
        obtain ⟨events, hreset⟩ := Server.ungranting_resetEnrollment previous.id _ _
        exact hinvariant.ungranting hreset
      · rw [heq]
        obtain ⟨events, hnoted⟩ := Server.ungranting_noted operation pending.connectionId
        exact (hinvariant.ungranting hnoted).ungranting
          (Server.ungranting_storeEnrollment _ _ _ _)

theorem Reachable.oneGrant (hsystem : Reachable env system) :
    system.Sound ∧ system.server.OneGrant env := by
  apply hsystem.invariant
  · intro settings vaultKeyId now
    constructor <;> simp [System.initial, Server.initial, grantsSince, sinceIssuance]
  · intro system label next hsound hinvariant hstep
    exact hsound.oneGrant_stepped hinvariant hstep

/- Replay -/

/-- The request that the label resumes presents a redeemed code, as this client. What such a
request does to the grant of the code is the claim about replays. -/
structure Presents (system : System) (index : Nat) (client : OAuthClientRow)
    (form : TokenForm) (code : AuthorizationCodeRow) : Prop where
  authenticated : ∃ resolved presented, system.tasks[index]? =
      some (.resolvingClient (.resolved resolved) (.token presented form)) ∧
    Server.finishAuthenticate presented resolved = .ok client
  grantType : form.grantType = some "authorization_code"
  found : ∃ codeHash, form.code = some codeHash ∧
    system.server.findCodeByHash codeHash = some code
  redeemed : code.redeemedAt ≠ none

/-- No grant that came of the code is live. -/
def NoLiveGrant (history : List Event) (code : AuthorizationCodeRow) (system : System) :
    Prop :=
  ∀ grant granted codeVerifier, .grantIssued grant granted codeVerifier ∈ history →
    granted.id = code.id → ∀ row ∈ system.server.grants, row.id = grant.id →
      row.revokedAt ≠ none

theorem Stepped.grant_revoked (hsystem : system.Sound) (hstep : Stepped env system label next)
    {grantId : Id} (hdrawn : grantId < system.server.nextId)
    (hrevoked : ∀ row ∈ system.server.grants, row.id = grantId → row.revokedAt ≠ none) :
    grantId < next.server.nextId ∧
      ∀ row ∈ next.server.grants, row.id = grantId → row.revokedAt ≠ none := by
  obtain ⟨hle, hgrants⟩ := hstep.grants hsystem
  refine ⟨Nat.lt_of_lt_of_le hdrawn hle, ?_⟩
  apply hgrants.forall _ _ hrevoked
  · intro old row hgoesOn hold hid
    exact hgoesOn.2 (hold (by rw [hgoesOn.1] at hid; exact hid))
  · intro row hnew hid
    rw [hid] at hnew
    exact absurd hdrawn (Nat.not_lt.mpr hnew)

/-- A revoked grant stays revoked over every run. -/
theorem Sound.grant_revoked_run (hsystem : system.Sound) {grantId : Id}
    (hdrawn : grantId < system.server.nextId)
    (hrevoked : ∀ row ∈ system.server.grants, row.id = grantId → row.revokedAt ≠ none)
    (labels : List Label) :
    ∀ row ∈ (run env system labels).server.grants, row.id = grantId →
      row.revokedAt ≠ none := by
  have hrun := StepRun.invariant_of_run (System.step env)
    (fun system => system.Sound ∧ grantId < system.server.nextId ∧
      ∀ row ∈ system.server.grants, row.id = grantId → row.revokedAt ≠ none)
    (fun system label h => ⟨h.1.step label,
      (step_stepped h.1.server label).grant_revoked h.1 h.2.1 h.2.2⟩)
    labels ⟨hsystem, hdrawn, hrevoked⟩
  exact hrun.2.2

/-- Presented with a verifier, by a client that may redeem codes, a redeemed code takes
its grant with it for good. -/
theorem Presents.noLiveGrant (hreachable : Reachable env system) {index : Nat}
    {client : OAuthClientRow} {form : TokenForm} {code : AuthorizationCodeRow}
    (hpresents : Presents system index client form code)
    (hverifier : form.codeVerifier ≠ none)
    (hclient : "authorization_code" ∈ client.grantTypes) (later : List Label) :
    NoLiveGrant system.server.history code
      (run env (system.step env (.resume index .done)) later) := by
  obtain ⟨hsystem, hinvariant⟩ := hreachable.oneGrant
  obtain ⟨⟨resolved, presented, htask, hauthenticated⟩, hgrantType, ⟨codeHash, hcode, hfind⟩,
    hredeemed⟩ := hpresents
  obtain ⟨codeVerifier, hcodeVerifier⟩ := Option.ne_none_iff_exists'.mp hverifier
  intro grant granted verifier hgrant hid
  obtain ⟨-, hnoted⟩ := hinvariant.codes_granted grant granted verifier hgrant code
    (mem_of_lookup hfind) hid.symm
  have hexchange : (system.server.exchangeCode env
      ⟨client, form.code, form.redirectUri, form.codeVerifier, form.resource⟩).2 =
        system.server.revokeGrant grant.id "authorization code replayed" :=
    Server.exchangeCode_replayed hcode hcodeVerifier hclient hfind hredeemed hnoted
  have hserver : (system.step env (.resume index .done)).server =
      system.server.revokeGrant grant.id "authorization code replayed" := by
    simp [System.step, htask, Server.proceed, Server.continueWith, hauthenticated,
      Server.answerToken, hgrantType, hexchange]
  apply (hsystem.step (.resume index .done)).grant_revoked_run
  · rw [hserver]
    exact (hinvariant.grants_drawn grant granted verifier hgrant).2
  · rw [hserver]
    exact Server.revokeGrant_revoked grant.id _

/- The enrollment behind a new code -/

theorem Stepped.newCode (hsystem : system.Sound) (hstep : Stepped env system label next)
    {code : AuthorizationCodeRow} (hcode : .codeIssued code ∈ next.server.history)
    (hnew : .codeIssued code ∉ system.server.history) :
    ∃ wait client enrollment connection,
      system.server.Approval wait client enrollment connection ∧
        code = system.server.codeRow
          (Server.issueInput wait client enrollment connection) := by
  cases hstep with
  | evolved hevolves _ => exact absurd (hevolves.codeIssued_mem hcode) hnew
  | signedIn _ _ _ _ =>
      rw [Server.showConsent_history] at hcode
      rcases List.mem_append.mp hcode with hcode | hcode
      · split at hcode
        · cases List.mem_singleton.mp hcode
        · cases hcode
      · rcases List.mem_cons.mp hcode with heq | hcode
        · cases heq
        · exact absurd hcode hnew
  | @approved _ _ wait client enrollment connection _ happroval hevolves =>
      rcases List.mem_cons.mp (hevolves.codeIssued_mem hcode) with heq | hcode
      · injection heq with heq
        exact ⟨wait, client, enrollment, connection, happroval, heq⟩
      · exact absurd hcode hnew
  | @redeemed _ _ _ _ _ client code' codeVerifier scopes =>
      have hevolves : Server.Evolves Mandate.none _
          ((system.server.redeemed code').grantCode client code' scopes codeVerifier).2 :=
        Server.evolves_grantCode client code' scopes codeVerifier
      rcases List.mem_cons.mp (hevolves.codeIssued_mem hcode) with heq | hcode
      · cases heq
      · exact absurd hcode hnew
  | @hashed _ operation pending _ htask =>
      rcases Server.finishHash_cases operation pending
          (hsystem.newUsername _ (List.mem_of_getElem? htask) operation pending rfl) with
        heq | ⟨previous, -, -, heq⟩ | ⟨-, heq⟩
      · rw [heq] at hcode
        exact absurd hcode hnew
      · rw [heq] at hcode
        simp only [Server.resetEnrollment] at hcode
        split at hcode
        · exact absurd hcode hnew
        · rcases List.mem_cons.mp hcode with heq | hcode
          · cases heq
          · exact absurd hcode hnew
      · rw [heq] at hcode
        rcases List.mem_cons.mp hcode with heq | hcode
        · cases heq
        · cases operation with
          | create => exact absurd hcode hnew
          | reissue => exact absurd hcode hnew
          | rotate =>
              rcases List.mem_cons.mp hcode with heq | hcode
              · cases heq
              · exact absurd hcode hnew

/-- A new code is backed by a setup password that can be used when it is issued. -/
theorem Stepped.newCode_usable (hsystem : system.Sound)
    (hstep : Stepped env system label next) {code : AuthorizationCodeRow}
    (hcode : .codeIssued code ∈ next.server.history)
    (hnew : .codeIssued code ∉ system.server.history) :
    ∀ row ∈ system.server.enrollments, row.id = code.enrollmentId →
      row.UsableAt system.server.now := by
  obtain ⟨wait, client, enrollment, connection, happroval, rfl⟩ :=
    hstep.newCode hsystem hcode hnew
  intro row hrow hid
  have hsame : row = enrollment := eq_of_key_eq hsystem.server.enrollment_nodup hrow
    (mem_of_lookup happroval.enrollment_found) hid
  rw [hsame]
  exact Server.enrollmentProblem_none happroval.noProblem

/- Single use -/

/-- What the history of a run says about its grants: at most one for each code, at most one for
each setup password, and each for the client, address, challenge and connection of its code. -/
structure SingleUse (env : Env) (history : List Event) : Prop where
  perCode : ∀ codeId, (history.countP fun event => event.grantsCode codeId) ≤ 1
  /-- No two grants for an enrollment without a new setup password between them. -/
  perIssuance : ∀ enrollmentId newer segment older, history = newer ++ segment ++ older →
    (∀ event ∈ segment, event.startsIssuance enrollmentId = false) →
      (segment.countP fun event => event.grantsEnrollment enrollmentId) ≤ 1
  /-- A grant is for the client, redirect URI, challenge and connection of its code. -/
  bound : ∀ grant code codeVerifier, .grantIssued grant code codeVerifier ∈ history →
    ∃ issued, .codeIssued issued ∈ history ∧ issued.id = code.id ∧
      grant.clientId = issued.clientId ∧ grant.redirectUri = issued.redirectUri ∧
      verifyPkceS256 env codeVerifier issued.codeChallenge = true ∧
      grant.connectionId = issued.connectionId

theorem Reachable.singleUse (hreachable : Reachable env system) :
    SingleUse env system.server.history := by
  obtain ⟨-, hinvariant⟩ := hreachable.oneGrant
  refine ⟨hinvariant.perCode, ?_, hinvariant.bound⟩
  intro enrollmentId newer segment older hhistory hsegment
  have hsuffix : segment ++ older <:+ system.server.history := by
    rw [hhistory, List.append_assoc]
    exact List.suffix_append _ _
  exact Nat.le_trans (countP_le_grantsSince hsegment)
    (hinvariant.perIssuance enrollmentId _ hsuffix)

/-- Over every interleaving: single use of codes and setup passwords, no live grant after a
replay with a verifier by a client that may redeem codes, and no code backed by a setup password
that cannot be used. Uses are counted over the events of the run, so that no later change of a
row can hide one. -/
theorem codes_and_setupPasswords_singleUse (hreachable : Reachable env system) :
    SingleUse env system.server.history ∧
      (∀ index client form code, Presents system index client form code →
        form.codeVerifier ≠ none → "authorization_code" ∈ client.grantTypes →
          ∀ later, NoLiveGrant system.server.history code
            (run env (system.step env (.resume index .done)) later)) ∧
      ∀ label code, .codeIssued code ∈ (system.step env label).server.history →
        .codeIssued code ∉ system.server.history →
          ∀ row ∈ system.server.enrollments, row.id = code.enrollmentId →
            row.UsableAt system.server.now := by
  refine ⟨hreachable.singleUse, ?_, ?_⟩
  · intro index client form code hpresents hverifier hclient later
    exact hpresents.noLiveGrant hreachable hverifier hclient later
  · intro label code hcode hnew
    have hsystem := hreachable.oneGrant.1
    exact (step_stepped hsystem.server label).newCode_usable hsystem hcode hnew

end System

/- A service with one connection, a client, and a mailbox owner who authorizes it -/

namespace OneConnection

def redirectUri : String := "https://app.example/cb"

def codeVerifier : String := "dBjftJeZ4CVP-mB92K27uhbUJU1p1r_wW1gFWFOEjXk"

def codeChallenge : String := "E9Melhoa2OwvFrEMTJguCHaoeK1t8URWbuGJSstw-cM"

def env : Env where
  requireHttps := true
  sha256Base64Url := fun text => if text = codeVerifier then codeChallenge else ""
  parseUrl := fun text =>
    if text = redirectUri then
      some ⟨"https:", "app.example", "https://app.example", "/cb", "", "", "", ""⟩
    else none
  rank := fun id => id

def settings : McpSettings where
  enabled := true
  publicBaseUrl := some "https://mcp.example.com"
  setupCredentialTtlHours := 24
  connectionExpiryDays := none
  maxConnectionsPerMailbox := 3
  accessTokenTtlMinutes := 15
  refreshTokenTtlDays := 30
  sendsPerHour := 10
  sendsPerDay := 100
  dynamicRegistration := true
  metadataDocuments := true

def start : System := System.initial settings (some "k1") 1000

/-- The connection 1 gets its setup username 2 and password 3, as enrollment 4, and the
client `dcr_5` registers. -/
def prepared : List Label :=
  [.request (.create ⟨"owner@example.com", "f1", "Assistant", [.mailRead], none, some "pw"⟩),
    .resume 0 (.verified ⟨true, true, false, ""⟩),
    .resume 0 .done,
    .request (.register ⟨[redirectUri], none, none, none, some "none"⟩)]

/-- The owner's form for transaction 7, whose CSRF token is 8. -/
def form : AuthorizeForm := ⟨some 7, some 8, some 2, some 3, some "approve"⟩

/-- The client sends the browser, and the owner signs in with the setup password, up to the
consent page. -/
def signIn : List Label :=
  [.request (.start [("response_type", "code"), ("client_id", "dcr_5"),
      ("code_challenge", codeChallenge), ("code_challenge_method", "S256")]),
    .resume 0 .done,
    .request (.login form (some 7) (some "192.0.2.1")),
    .resume 0 .done,
    .resume 0 .done]

/-- The owner approves. -/
def approve : List Label :=
  [.request (.decide form (some 7)), .resume 0 .done]

def tokenForm (code : Secret) (verifier : Option String) : TokenForm :=
  ⟨some "authorization_code", some code, some redirectUri, verifier, none, none, none⟩

/-- The client's request for tokens, up to its wait. -/
def askToken (code : Secret) (verifier : Option String) : List Label :=
  [.request (.token ⟨.absent, some "dcr_5", none⟩ (tokenForm code verifier))]

/-- The client, as it registered. -/
def client : OAuthClientRow :=
  ⟨"dcr_5", .dcr, none, [redirectUri], ["authorization_code", "refresh_token"], .none, none,
    none, 1000⟩

/-- The owner's code 9, with the hash 10, as it is stored once redeemed. -/
def redeemedCode : AuthorizationCodeRow :=
  ⟨9, 10, 7, "dcr_5", redirectUri, codeChallenge, [.mailRead],
    "https://mcp.example.com/mcp/c00000000000000000000000001", 1, 4, 1000, 61000, some 1000,
    some 11⟩

/-- The code is redeemed, and presented again. -/
def presentedAgain (verifier : Option String) : System :=
  System.run env start (prepared ++ signIn ++ approve ++ askToken 10 (some codeVerifier) ++
    [.resume 0 .done] ++ askToken 10 verifier)

theorem presentedAgain_reachable (verifier : Option String) :
    System.Reachable env (presentedAgain verifier) :=
  ⟨settings, some "k1", 1000, _, rfl⟩

theorem presentedAgain_state {verifier : Option String}
    (hverifier : verifier = none ∨ verifier = some codeVerifier) :
    (presentedAgain verifier).tasks[0]? =
        some (.resolvingClient (.resolved (.ok client))
          (.token ⟨none, false⟩ (tokenForm 10 verifier))) ∧
      (presentedAgain verifier).server.findCodeByHash 10 = some redeemedCode := by
  rcases hverifier with rfl | rfl
  · decide
  · decide

theorem presentedAgain_presents {verifier : Option String}
    (hverifier : verifier = none ∨ verifier = some codeVerifier) :
    System.Presents (presentedAgain verifier) 0 client (tokenForm 10 verifier)
      redeemedCode where
  authenticated := ⟨.ok client, ⟨none, false⟩, (presentedAgain_state hverifier).1, rfl⟩
  grantType := rfl
  found := ⟨10, rfl, (presentedAgain_state hverifier).2⟩
  redeemed := by decide

/-- The code has been redeemed, and the same client presents it again with its verifier: the
grant of the first redemption is revoked and stays revoked. -/
theorem presentedAgain_noLiveGrant :
    System.SingleUse env (presentedAgain (some codeVerifier)).server.history ∧
      System.NoLiveGrant (presentedAgain (some codeVerifier)).server.history redeemedCode
        ((presentedAgain (some codeVerifier)).step env (.resume 0 .done)) := by
  obtain ⟨hsingleUse, hreplay, -⟩ := System.codes_and_setupPasswords_singleUse
    (presentedAgain_reachable (some codeVerifier))
  have hafter := hreplay 0 client _ redeemedCode (presentedAgain_presents (Or.inr rfl))
    (by decide) (by decide) []
  rw [System.run, StepRun.run_nil] at hafter
  exact ⟨hsingleUse, hafter⟩

/-- The owner's grant, as the redemption stored it. -/
def grant : GrantRow :=
  ⟨11, 1, "dcr_5", none, redirectUri, [.mailRead],
    "https://mcp.example.com/mcp/c00000000000000000000000001", 1000, none, none, none⟩

/-- Without a verifier the replay is refused before the code is looked up, and the grant of the
first redemption stays live. -/
theorem replay_without_verifier_keeps_grant :
    ¬ ∀ env system, System.Reachable env system → ∀ index client form code,
      System.Presents system index client form code →
        System.NoLiveGrant system.server.history code
          (system.step env (.resume index .done)) := by
  intro hclaim
  have hkept : Event.grantIssued grant { redeemedCode with redeemedAt := none, grantId := none }
        codeVerifier ∈ (presentedAgain none).server.history ∧
      grant ∈ ((presentedAgain none).step env (.resume 0 .done)).server.grants := by
    decide
  have hnone := hclaim env (presentedAgain none) (presentedAgain_reachable none) 0 client _
    redeemedCode (presentedAgain_presents (Or.inl rfl)) grant
    { redeemedCode with redeemedAt := none, grantId := none } codeVerifier hkept.1 rfl
  exact hnone grant hkept.2 rfl rfl

end OneConnection

end Mcp

end MailPanel
