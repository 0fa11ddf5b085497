import MailPanel.McpSingleUse

/-
The exchange of a code as one operation: whether an exchange that fails leaves the setup
password behind the code as it found it.
-/

namespace MailPanel

namespace Mcp

open RowTable

namespace Server

section Exchange

variable (env : Env) (s : Server) (input : ExchangeInput)

/-- A setup password that was unused is consumed. -/
def ConsumedBetween (t : Server) (enrollmentId : Id) : Prop :=
  (∃ row ∈ s.enrollments, row.id = enrollmentId ∧ row.consumedAt = none) ∧
    ∃ row ∈ t.enrollments, row.id = enrollmentId ∧ row.consumedAt ≠ none

/-- A grant comes from a code that the setup password backs. -/
def GrantedBetween (t : Server) (enrollmentId : Id) : Prop :=
  ∃ grant code codeVerifier, t.history = .grantIssued grant code codeVerifier :: s.history ∧
    grant ∈ t.grants ∧ code.enrollmentId = enrollmentId

/-- A failed exchange consumes no setup password; one is consumed exactly for a grant. -/
structure SparesSetupPassword : Prop where
  failed : ∀ error, (s.exchangeCode env input).1 = .error error →
    ∀ enrollmentId, ¬ s.ConsumedBetween (s.exchangeCode env input).2 enrollmentId
  granted : ∀ enrollmentId, s.ConsumedBetween (s.exchangeCode env input).2 enrollmentId ↔
    s.GrantedBetween (s.exchangeCode env input).2 enrollmentId

/-- The exchange gets past its checks and its two conditional writes, which use up the code and
the setup password. What comes after may still fail, and then both stay used up. -/
structure ReachesPassword (code : AuthorizationCodeRow) (codeVerifier : String) : Prop where
  presented : ∃ codeHash, input.code = some codeHash ∧ s.findCodeByHash codeHash = some code
  verifier : input.codeVerifier = some codeVerifier
  allowed : "authorization_code" ∈ input.client.grantTypes
  unredeemed : code.redeemedAt = none
  accepted : s.exchangeRefusal env input codeVerifier code = none
  redeems : (s.redeemCode code.id).1 = true
  consumes : (s.consumeEnrollment code.enrollmentId code.id).1 = true

/-- The connection of the code can be used, and still has a permission of the code. -/
def StillAllows (code : AuthorizationCodeRow) : Prop :=
  s.connectionUnusable code.connectionId = none ∧
    ∃ connection, s.findConnection code.connectionId = some connection ∧
      ∃ scope ∈ code.scopes, scope ∈ connection.scopes

end Exchange

variable {env : Env} {s t : Server} {input : ExchangeInput} {code : AuthorizationCodeRow}
  {codeVerifier : String}

theorem exchangeConsumed_allowed (client : OAuthClientRow) (hallows : s.StillAllows code) :
    ∃ response scopes, s.exchangeConsumed client code codeVerifier =
      (.ok response, (s.grantCode client code scopes codeVerifier).2) := by
  obtain ⟨husable, connection, hfind, scope, hscope, hkept⟩ := hallows
  have hsome : (code.scopes.filter fun scope => scope ∈ connection.scopes).isEmpty = false := by
    rw [List.isEmpty_eq_false_iff_exists_mem]
    exact ⟨scope, List.mem_filter.mpr ⟨hscope, by simpa using hkept⟩⟩
  rw [exchangeConsumed, husable]
  dsimp only
  rw [hfind]
  dsimp only
  rw [hsome, if_neg Bool.false_ne_true]
  exact ⟨_, _, rfl⟩

theorem exchangeConsumed_refused (client : OAuthClientRow) (hallows : ¬ s.StillAllows code) :
    ∃ error, s.exchangeConsumed client code codeVerifier = (.error error, s) := by
  rw [exchangeConsumed]
  split
  · exact ⟨_, rfl⟩
  · rename_i husable
    split
    · exact ⟨_, rfl⟩
    · rename_i connection hfind
      dsimp only
      split
      · exact ⟨_, rfl⟩
      · rename_i hsome
        rw [Bool.not_eq_true, List.isEmpty_eq_false_iff_exists_mem] at hsome
        obtain ⟨scope, hscope⟩ := hsome
        obtain ⟨hscope, hkept⟩ := List.mem_filter.mp hscope
        exact absurd ⟨husable, connection, hfind, scope, hscope, by simpa using hkept⟩ hallows

/-- The two writes are about neither the connection nor what makes it usable. -/
theorem stillAllows_redeemed : (s.redeemed code).StillAllows code ↔ s.StillAllows code :=
  Iff.rfl

theorem exchangeCode_reaches (hreaches : s.ReachesPassword env input code codeVerifier) :
    s.exchangeCode env input =
      (s.redeemed code).exchangeConsumed input.client code codeVerifier := by
  obtain ⟨codeHash, hcode, hfind⟩ := hreaches.presented
  have hredeem : s.redeemCode code.id = (true, (s.redeemCode code.id).2) :=
    Prod.ext hreaches.redeems rfl
  have hconsume : (s.redeemCode code.id).2.consumeEnrollment code.enrollmentId code.id =
      (true, s.redeemed code) :=
    Prod.ext hreaches.consumes rfl
  rw [exchangeCode, hcode, hreaches.verifier]
  dsimp only
  rw [if_neg (not_not.mpr hreaches.allowed), hfind]
  dsimp only
  rw [if_neg (not_not.mpr hreaches.unredeemed), hreaches.accepted]
  dsimp only
  rw [hredeem]
  dsimp only
  rw [hconsume]

/-- A setup password that cannot be consumed stays as it is. -/
theorem consumeEnrollment_fails (hnodup : (s.enrollments.map EnrollmentRow.id).Nodup)
    {enrollmentId codeId : Id} (hfails : (s.consumeEnrollment enrollmentId codeId).1 = false) :
    (s.consumeEnrollment enrollmentId codeId).2.enrollments = s.enrollments := by
  have hone : changes s.enrollments (consumable enrollmentId codeId) ≤ 1 := by
    apply countP_le_one hnodup
    intro left _ right _ hleft hright
    simp only [consumable, decide_eq_true_eq] at hleft hright
    exact hleft.1.trans hright.1.symm
  have hnot : changes s.enrollments (consumable enrollmentId codeId) ≠ 1 := by
    simpa [consumeEnrollment] using hfails
  exact updateWhere_of_changes_eq_zero (by omega)

/-- An exchange that does not get as far as the setup password leaves it alone. -/
theorem exchangeCode_stops (hs : s.WellFormed)
    (hstops : ∀ code codeVerifier, ¬ s.ReachesPassword env input code codeVerifier) :
    (∃ error, (s.exchangeCode env input).1 = .error error) ∧
      (s.exchangeCode env input).2.enrollments = s.enrollments ∧
      (s.exchangeCode env input).2.history = s.history := by
  rw [exchangeCode]
  split
  · rename_i presented codeVerifier hpresented hverifier
    split
    · exact ⟨⟨_, rfl⟩, rfl, rfl⟩
    rename_i hallowed
    split
    · exact ⟨⟨_, rfl⟩, rfl, rfl⟩
    rename_i code hfind
    split
    · refine ⟨⟨_, rfl⟩, ?_, ?_⟩
      · dsimp only
        split <;> rfl
      · dsimp only
        split <;> rfl
    rename_i hunredeemed
    split
    · exact ⟨⟨_, rfl⟩, rfl, rfl⟩
    rename_i haccepted
    split
    · rename_i afterRedeem hredeem
      have hafter : afterRedeem = (s.redeemCode code.id).2 := (congrArg Prod.snd hredeem).symm
      rw [hafter]
      exact ⟨⟨_, rfl⟩, rfl, rfl⟩
    rename_i afterRedeem hredeem
    have hafter : afterRedeem = (s.redeemCode code.id).2 := (congrArg Prod.snd hredeem).symm
    rw [hafter]
    have hconsumes : (s.consumeEnrollment code.enrollmentId code.id).1 = false := by
      by_contra hconsumes
      apply hstops code codeVerifier
      exact
        { presented := ⟨presented, hpresented, hfind⟩
          verifier := hverifier
          allowed := not_not.mp hallowed
          unredeemed := not_not.mp hunredeemed
          accepted := haccepted
          redeems := congrArg Prod.fst hredeem
          consumes := by rwa [Bool.not_eq_false] at hconsumes }
    have hconsume : (s.redeemCode code.id).2.consumeEnrollment code.enrollmentId code.id =
        (false, s.redeemed code) :=
      Prod.ext hconsumes rfl
    rw [hconsume]
    exact ⟨⟨_, rfl⟩, consumeEnrollment_fails hs.enrollment_nodup hconsumes, rfl⟩
  · exact ⟨⟨_, rfl⟩, rfl, rfl⟩

/-- Where no setup password changes, none is consumed. -/
theorem not_consumedBetween (hnodup : (s.enrollments.map EnrollmentRow.id).Nodup)
    (hkept : t.enrollments = s.enrollments) (enrollmentId : Id) :
    ¬ s.ConsumedBetween t enrollmentId := by
  rintro ⟨⟨row, hrow, hid, hunused⟩, after, hafter, hafterId, hused⟩
  rw [hkept] at hafter
  have hsame : after = row := eq_of_key_eq hnodup hafter hrow (hafterId.trans hid.symm)
  rw [hsame] at hused
  exact hused hunused

/-- The two writes consume the setup password behind the code, and no other. -/
theorem consumedBetween_iff (hnodup : (s.enrollments.map EnrollmentRow.id).Nodup)
    (hreaches : s.ReachesPassword env input code codeVerifier)
    (ht : t.enrollments = (s.redeemed code).enrollments) (enrollmentId : Id) :
    s.ConsumedBetween t enrollmentId ↔ enrollmentId = code.enrollmentId := by
  have henrollments : t.enrollments = updateWhere s.enrollments
      (consumable code.enrollmentId code.id) fun row =>
        { row with consumedAt := some s.now, reservedUntil := none } := ht
  constructor
  · rintro ⟨⟨row, hrow, hid, hunused⟩, after, hafter, hafterId, hused⟩
    rw [henrollments] at hafter
    rcases mem_updateWhere.mp hafter with ⟨hold, -⟩ | ⟨old, hold, hcondition, rfl⟩
    · have hsame : after = row := eq_of_key_eq hnodup hold hrow (hafterId.trans hid.symm)
      rw [hsame] at hused
      exact absurd hunused hused
    · simp only [consumable, decide_eq_true_eq] at hcondition
      exact hafterId.symm.trans hcondition.1
  · rintro rfl
    have hcount : changes s.enrollments (consumable code.enrollmentId code.id) = 1 := by
      simpa [consumeEnrollment] using hreaches.consumes
    obtain ⟨row, hrow, hcondition⟩ := changes_pos_iff.mp (by rw [hcount]; exact Nat.one_pos)
    have hrowId := hcondition
    simp only [consumable, decide_eq_true_eq] at hrowId
    have hafter : { row with consumedAt := some s.now, reservedUntil := none } ∈
        t.enrollments := by
      rw [henrollments]
      exact mem_updateWhere.mpr (Or.inr ⟨row, hrow, hcondition, rfl⟩)
    exact ⟨⟨row, hrow, hrowId.1, hrowId.2.2.1⟩, _, hafter, hrowId.1, Option.some_ne_none _⟩

theorem not_grantedBetween (hkept : t.history = s.history) (enrollmentId : Id) :
    ¬ s.GrantedBetween t enrollmentId := by
  rintro ⟨grant, code, codeVerifier, hhistory, -⟩
  have hlength := congrArg List.length (hhistory.symm.trans hkept)
  rw [List.length_cons] at hlength
  omega

/-- Storing the grant is about no setup password. -/
theorem grantCode_enrollments (s : Server) (client : OAuthClientRow)
    (code : AuthorizationCodeRow) (scopes : List McpScope) (codeVerifier : String) :
    (s.grantCode client code scopes codeVerifier).2.enrollments = s.enrollments := by
  rw [grantCode]
  rfl

theorem grantedBetween_iff (client : OAuthClientRow) (scopes : List McpScope)
    (enrollmentId : Id) :
    s.GrantedBetween ((s.redeemed code).grantCode client code scopes codeVerifier).2
      enrollmentId ↔ enrollmentId = code.enrollmentId := by
  have hhistory : ((s.redeemed code).grantCode client code scopes codeVerifier).2.history =
      .grantIssued ((s.redeemed code).grantRow client code scopes) code codeVerifier ::
        s.history := rfl
  constructor
  · rintro ⟨grant, granted, verifier, hfound, -, hid⟩
    rw [hhistory] at hfound
    injection (List.cons.inj hfound).1 with _ hcode _
    rw [← hid, hcode]
  · rintro rfl
    refine ⟨_, code, codeVerifier, hhistory, ?_, rfl⟩
    exact List.mem_append_right _ List.mem_cons_self

end Server

namespace System

/-- In every reachable state, an exchange spares the setup password unless it gets as far as to
consume it while the connection cannot be used or has none of the permissions left. The
consumption comes before both of these checks, and a refusal does not undo it. -/
theorem exchange_spares_iff {env : Env} {system : System} (hreachable : Reachable env system)
    (input : ExchangeInput) :
    Server.SparesSetupPassword env system.server input ↔
      ∀ code codeVerifier, system.server.ReachesPassword env input code codeVerifier →
        system.server.StillAllows code := by
  have hs : system.server.WellFormed := hreachable.oneGrant.1.server
  constructor
  · intro hspares code codeVerifier hreaches
    by_contra hallows
    obtain ⟨error, hrefused⟩ := @Server.exchangeConsumed_refused _ code codeVerifier
      input.client (Server.stillAllows_redeemed.not.mpr hallows)
    have hexchange := (Server.exchangeCode_reaches hreaches).trans hrefused
    apply hspares.failed error (congrArg Prod.fst hexchange) code.enrollmentId
    rw [hexchange, Server.consumedBetween_iff hs.enrollment_nodup hreaches rfl]
  · intro hallows
    by_cases hstops : ∀ code codeVerifier,
        ¬ system.server.ReachesPassword env input code codeVerifier
    · obtain ⟨-, henrollments, hhistory⟩ := Server.exchangeCode_stops hs hstops
      have hunconsumed := Server.not_consumedBetween hs.enrollment_nodup henrollments
      exact ⟨fun _ _ => hunconsumed, fun enrollmentId => iff_of_false
        (hunconsumed enrollmentId) (Server.not_grantedBetween hhistory enrollmentId)⟩
    · simp only [not_forall, not_not] at hstops
      obtain ⟨code, codeVerifier, hreaches⟩ := hstops
      obtain ⟨response, scopes, hgranted⟩ := @Server.exchangeConsumed_allowed _ code codeVerifier
        input.client (Server.stillAllows_redeemed.mpr (hallows code codeVerifier hreaches))
      have hexchange := (Server.exchangeCode_reaches hreaches).trans hgranted
      refine ⟨?_, ?_⟩
      · intro error herror
        rw [hexchange] at herror
        cases herror
      · intro enrollmentId
        rw [hexchange, Server.grantedBetween_iff]
        exact Server.consumedBetween_iff hs.enrollment_nodup hreaches
          (Server.grantCode_enrollments _ _ _ _ _) enrollmentId

end System

namespace OneConnection

/-- The client redeems the owner's code. -/
def exchange : ExchangeInput :=
  ⟨client, some 10, some redirectUri, some codeVerifier, none⟩

/-- The owner has approved. -/
def approved : System := System.run env start (prepared ++ signIn ++ approve)

theorem approved_reachable : System.Reachable env approved := ⟨settings, some "k1", 1000, _, rfl⟩

/-- The owner has approved: the exchange gets as far as to consume the setup password, the
connection can be used, and it has a permission left. -/
theorem approved_spares : Server.SparesSetupPassword env approved.server exchange := by
  apply (System.exchange_spares_iff approved_reachable exchange).mpr
  intro code codeVerifier hreaches
  obtain ⟨codeHash, hpresented, hfind⟩ := hreaches.presented
  obtain ⟨hcode, husable, hconnection⟩ : approved.server.findCodeByHash 10 =
        some { redeemedCode with redeemedAt := none, grantId := none } ∧
      approved.server.connectionUnusable 1 = none ∧
      (approved.server.findConnection 1).map ConnectionRow.scopes = some [.mailRead] := by
    decide
  rw [← Option.some.inj hpresented, hcode] at hfind
  rw [← Option.some.inj hfind]
  obtain ⟨connection, hconnection, hscopes⟩ := Option.map_eq_some_iff.mp hconnection
  refine ⟨husable, connection, hconnection, .mailRead, List.mem_cons_self, ?_⟩
  rw [hscopes]
  exact List.mem_cons_self

/-- The postmaster disables the connection between the approval and the exchange. -/
def disabledBetween : System :=
  System.run env start (prepared ++ signIn ++ approve ++ [.request (.disable 1 none)])

/-- The exchange fails, and the setup password is gone with it: the connection was disabled
between the approval and the exchange. -/
theorem failed_exchange_consumes :
    ¬ ∀ env system, System.Reachable env system → ∀ input,
      Server.SparesSetupPassword env system.server input := by
  intro hclaim
  have hspares := hclaim env disabledBetween ⟨settings, some "k1", 1000, _, rfl⟩ exchange
  obtain ⟨herror, hbefore, hafter⟩ : (disabledBetween.server.exchangeCode env exchange).1 =
        .error (invalidGrant "The connection is disabled.") ∧
      (∃ row ∈ disabledBetween.server.enrollments, row.id = 4 ∧ row.consumedAt = none) ∧
      ∃ row ∈ (disabledBetween.server.exchangeCode env exchange).2.enrollments,
        row.id = 4 ∧ row.consumedAt ≠ none := by
    decide
  exact hspares.failed _ herror 4 ⟨hbefore, hafter⟩

end OneConnection

end Mcp

end MailPanel
