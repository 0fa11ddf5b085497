import MailPanel.McpConsent
import MailPanel.McpMailbox

/-
A mailbox whose binding is stale, invalid or revoked gives no access: its connections
have no live grant, and get none before the binding is active again.
-/

namespace MailPanel

namespace Mcp

open RowTable

namespace Server

variable {env : Env} {s t : Server}

/-- A connection that may be used is not revoked, and its mailbox is active. -/
structure Usable (s : Server) (connectionId : Id) : Prop where
  connection : ∃ connection binding, s.findConnection connectionId = some connection ∧
    s.findBinding connection.bindingId = some binding ∧ connection.state ≠ .revoked ∧
      binding.state = .active

theorem statusOf_usable {connection : ConnectionRow} {binding : BindingRow}
    (hstatus : (s.statusOf connection binding).1 = .active ∨
      (s.statusOf connection binding).1 = .pending) :
    connection.state ≠ .revoked ∧ s.credentialHealth binding = .healthy := by
  constructor
  · intro hrevoked
    simp [statusOf, hrevoked] at hstatus
  · by_contra hunhealthy
    simp only [statusOf] at hstatus
    repeat' split at hstatus
    all_goals rcases hstatus with hstatus | hstatus <;> cases hstatus

theorem usable_of_connectionUnusable {connectionId : Id}
    (h : s.connectionUnusable connectionId = none) : s.Usable connectionId := by
  simp only [connectionUnusable] at h
  split at h
  · cases h
  · split at h
    · cases h
    · rename_i connection hconnection
      split at h
      · cases h
      · rename_i binding hbinding
        split at h
        · cases h
        · rename_i hstatus
          rw [not_and_or, Decidable.not_not, Decidable.not_not] at hstatus
          obtain ⟨hstate, hhealthy⟩ := statusOf_usable hstatus
          exact ⟨connection, binding, hconnection, hbinding, hstate,
            (credentialHealth_healthy hhealthy).1⟩

theorem Curbed.of_frame (hs : s.Curbed) (hle : s.nextId ≤ t.nextId)
    (hgrants : t.grants = s.grants) (hconnections : t.connections = s.connections)
    (hbindings : t.bindings = s.bindings) : t.Curbed where
  connection_lt := by
    rw [hconnections]
    exact fun row hrow => Nat.lt_of_lt_of_le (hs.connection_lt row hrow) hle
  grant_lt := by
    rw [hgrants]
    exact fun row hrow => Nat.lt_of_lt_of_le (hs.grant_lt row hrow) hle
  binding_lt := by
    rw [hbindings]
    exact fun row hrow => Nat.lt_of_lt_of_le (hs.binding_lt row hrow) hle
  binding_nodup := hbindings ▸ hs.binding_nodup
  revokedAt := hbindings ▸ hs.revokedAt
  revoked := by
    rw [hconnections]
    intro row hrow hstate
    rw [CutOff, hgrants]
    exact hs.revoked row hrow hstate
  barred := by
    rw [hbindings, hconnections]
    intro binding hbinding hbarred row hrow hid
    rw [CutOff, hgrants]
    exact hs.barred binding hbinding hbarred row hrow hid

/-- A connection that is cut off stays so while a grant goes to another one. -/
theorem CutOff.append {connectionId : Id} {grant : GrantRow} (hcut : s.CutOff connectionId)
    (hgrants : t.grants = s.grants ++ [grant]) (hne : grant.connectionId ≠ connectionId) :
    t.CutOff connectionId := by
  intro row hrow hconnection
  rw [hgrants] at hrow
  rcases List.mem_append.mp hrow with hold | hnew
  · exact hcut row hold hconnection
  · rw [List.mem_singleton.mp hnew] at hconnection
    exact absurd hconnection hne

/-- A usable connection is none of the revoked ones, nor one of a barred mailbox. -/
theorem Usable.free (hs : s.Curbed) (hnodup : (s.connections.map ConnectionRow.id).Nodup)
    {connectionId : Id} (husable : s.Usable connectionId) {row : ConnectionRow}
    (hrow : row ∈ s.connections) (hid : connectionId = row.id) :
    row.state ≠ .revoked ∧
      ∀ binding ∈ s.bindings, row.bindingId = binding.id → binding.state = .active := by
  obtain ⟨connection, found, hconnection, hfound, hstate, hactive⟩ := husable
  have hsame : connection = row :=
    eq_of_key_eq hnodup (mem_of_lookup hconnection) hrow ((key_of_lookup hconnection).trans hid)
  rw [hsame] at hstate hfound
  refine ⟨hstate, ?_⟩
  intro binding hbinding hbound
  have hsame : binding = found :=
    eq_of_key_eq hs.binding_nodup hbinding (mem_of_lookup hfound)
      (hbound.symm.trans (key_of_lookup hfound).symm)
  rw [hsame]
  exact hactive

theorem Curbed.storeGrant (hs : s.Curbed)
    (hnodup : (s.connections.map ConnectionRow.id).Nodup) (client : OAuthClientRow)
    {code : AuthorizationCodeRow} (scopes : List McpScope) (codeVerifier : String)
    (husable : s.Usable code.connectionId) :
    (s.storeGrant client code scopes codeVerifier).Curbed where
  connection_lt := fun row hrow => Nat.lt_succ_of_lt (hs.connection_lt row hrow)
  grant_lt := by
    intro row hrow
    rcases List.mem_append.mp hrow with hold | hnew
    · exact Nat.lt_succ_of_lt (hs.grant_lt row hold)
    · obtain ⟨connection, -, hfind, -⟩ := husable
      have hlt := hs.connection_lt connection (mem_of_lookup hfind)
      rw [key_of_lookup hfind] at hlt
      rw [List.mem_singleton.mp hnew]
      exact Nat.lt_succ_of_lt hlt
  binding_lt := fun row hrow => Nat.lt_succ_of_lt (hs.binding_lt row hrow)
  binding_nodup := hs.binding_nodup
  revokedAt := hs.revokedAt
  revoked := by
    intro row hrow hstate
    apply (hs.revoked row hrow hstate).append rfl
    intro hid
    exact (husable.free hs hnodup hrow hid).1 hstate
  barred := by
    intro binding hbinding hbarred row hrow hbound
    apply (hs.barred binding hbinding hbarred row hrow hbound).append rfl
    intro hid
    rw [(husable.free hs hnodup hrow hid).2 binding hbinding hbound] at hbarred
    cases hbarred

theorem Curbed.grantCode (hs : s.Curbed)
    (hnodup : (s.connections.map ConnectionRow.id).Nodup) (client : OAuthClientRow)
    {code : AuthorizationCodeRow} (scopes : List McpScope) (codeVerifier : String)
    (husable : s.Usable code.connectionId) :
    (s.grantCode client code scopes codeVerifier).2.Curbed := by
  have hstored := hs.storeGrant hnodup client scopes codeVerifier husable
  have htouched := hstored.tends (quiet_touchAuthorized code.connectionId).tends
  exact htouched.of_frame (Nat.le_add_right _ 4) rfl rfl rfl

theorem Curbed.refreshed (hs : s.Curbed) (token : RefreshTokenRow) (grant : GrantRow)
    (scopes : List McpScope) : (s.refreshed token grant scopes).Curbed := by
  have hmarked := hs.tends (quiet_markRefreshTokenUsed token.id).tends
  have htouched := hmarked.tends (quiet_touchGrant grant.id).tends
  exact htouched.of_frame (Nat.le_add_right _ 4) rfl rfl rfl

end Server

namespace System

variable {env : Env} {system : System} {label : Label} {server : Server}

theorem Minted.curbed (hnodup : (system.server.connections.map ConnectionRow.id).Nodup)
    (hs : system.server.Curbed) (h : Minted env system label server) : server.Curbed := by
  cases h with
  | none hcurbs => exact (hcurbs hs).2
  | @granted client _ code codeVerifier scopes hredemption =>
      have hredeemed := hs.tends (Server.quiet_redeemed code).tends
      exact hredeemed.grantCode hnodup client scopes codeVerifier
        (Server.usable_of_connectionUnusable hredemption.usable)
  | refreshed _ _ _ => exact hs.refreshed _ _ _

theorem Reachable.curbed (hreachable : Reachable env system) :
    system.Sound ∧ system.server.Curbed := by
  obtain ⟨settings, vaultKeyId, now, labels, rfl⟩ := hreachable
  apply StepRun.invariant_of_run (System.step env)
    (fun system => system.Sound ∧ system.server.Curbed)
  · intro system label h
    exact ⟨h.1.step label, (step_minted env system label).curbed h.1.server.connection_nodup h.2⟩
  · refine ⟨Sound.initial settings vaultKeyId now, ?_⟩
    constructor <;> simp [System.initial, Server.initial]

end System

/-- No connection of the mailbox has a live grant. -/
def Server.ShutOut (s : Server) (bindingId : Id) : Prop :=
  ∀ row ∈ s.connections, row.bindingId = bindingId → s.CutOff row.id

def Server.Active (s : Server) (bindingId : Id) : Prop :=
  ∃ row ∈ s.bindings, row.id = bindingId ∧ row.state = .active

namespace Server

instance (s : Server) (bindingId : Id) : Decidable (s.Active bindingId) :=
  inferInstanceAs (Decidable (∃ row ∈ s.bindings, row.id = bindingId ∧ row.state = .active))

variable {env : Env} {s t : Server} {bindingId : Id}

theorem ShutOut.of_frame (hshut : s.ShutOut bindingId) (hgrants : t.grants = s.grants)
    (hconnections : t.connections = s.connections) : t.ShutOut bindingId := by
  intro row hrow hbound
  rw [hconnections] at hrow
  rw [CutOff, hgrants]
  exact hshut row hrow hbound

theorem ShutOut.withdraws (hs : s.Curbed) (hshut : s.ShutOut bindingId) (h : s.Withdraws t) :
    t.ShutOut bindingId := by
  intro row hrow hbound
  rcases h.connections row hrow with ⟨old, hold, hstays⟩ | hnew
  · rw [hstays.1]
    exact (hshut old hold (hstays.2.1.symm.trans hbound)).goesOn h.grants
  · exact hs.drawn_cutOff h hnew.1

/-- A new grant goes to another mailbox. -/
theorem ShutOut.storeGrant (hnodup : (s.connections.map ConnectionRow.id).Nodup)
    (hshut : s.ShutOut bindingId) (hidle : ¬ s.Active bindingId) (client : OAuthClientRow)
    {code : AuthorizationCodeRow} (scopes : List McpScope) (codeVerifier : String)
    (husable : s.Usable code.connectionId) :
    (s.storeGrant client code scopes codeVerifier).ShutOut bindingId := by
  intro row hrow hbound
  apply (hshut row hrow hbound).append rfl
  intro hid
  obtain ⟨connection, binding, hconnection, hbinding, -, hactive⟩ := husable
  have hsame : connection = row :=
    eq_of_key_eq hnodup (mem_of_lookup hconnection) hrow ((key_of_lookup hconnection).trans hid)
  rw [hsame] at hbinding
  exact hidle ⟨binding, mem_of_lookup hbinding, (key_of_lookup hbinding).trans hbound, hactive⟩

end Server

namespace System

variable {env : Env} {system : System} {label : Label} {server : Server} {bindingId : Id}

theorem Minted.shutOut (hnodup : (system.server.connections.map ConnectionRow.id).Nodup)
    (hs : system.server.Curbed) (hshut : system.server.ShutOut bindingId)
    (hidle : ¬ system.server.Active bindingId) (h : Minted env system label server) :
    server.ShutOut bindingId := by
  cases h with
  | none hcurbs => exact hshut.withdraws hs (hcurbs hs).1
  | @granted client _ code codeVerifier scopes hredemption =>
      have husable := Server.usable_of_connectionUnusable hredemption.usable
      have hquiet : system.server.Quiet (system.server.redeemed code) :=
        Server.quiet_redeemed code
      have hredeemed := hshut.withdraws hs hquiet.toWithdraws
      have hnodup : ((system.server.redeemed code).connections.map ConnectionRow.id).Nodup :=
        hnodup
      have hstored := hredeemed.storeGrant hnodup hidle client scopes codeVerifier husable
      have hcurbed := (hs.tends hquiet.tends).storeGrant hnodup client scopes codeVerifier husable
      have htouched := hstored.withdraws hcurbed
        (Server.quiet_touchAuthorized code.connectionId).toWithdraws
      exact htouched.of_frame rfl rfl
  | @refreshed _ _ _ _ _ token grant _ _ _ _ =>
      have hmarked : system.server.Quiet (system.server.markRefreshTokenUsed token.id).2 :=
        Server.quiet_markRefreshTokenUsed token.id
      have htouched := hshut.withdraws hs
        (hmarked.trans (Server.quiet_touchGrant grant.id)).toWithdraws
      exact htouched.of_frame rfl rfl

/-- Over a run in which the mailbox is never active before a step, it stays shut out. -/
theorem Reachable.shutOut_run (hreachable : Reachable env system)
    (hshut : system.server.ShutOut bindingId) {labels : List Label}
    (hidle : StepRun.Meets (System.step env) (fun system _ => ¬ system.server.Active bindingId)
      system labels) : (run env system labels).server.ShutOut bindingId := by
  have hrun := StepRun.invariant_of_meets (System.step env)
    (fun system => Reachable env system ∧ system.server.ShutOut bindingId)
    (fun system label h hidle => by
      obtain ⟨hsystem, hs⟩ := h.1.curbed
      exact ⟨h.1.step label, (step_minted env system label).shutOut
        hsystem.server.connection_nodup hs h.2 hidle⟩)
    ⟨hreachable, hshut⟩ hidle
  exact hrun.2

/-- Neither a live grant nor an accepted token of a connection of a barred mailbox, in this
state or in any later one before the mailbox is active again. The barring ends the grants of
all connections of the mailbox in one step, and no grant is made for a binding that is not
active. -/
theorem barredBinding_shutOut (hreachable : Reachable env system) {binding : BindingRow}
    (hbinding : binding ∈ system.server.bindings) (hbarred : binding.state.barred = true)
    (labels : List Label)
    (hidle : StepRun.Meets (System.step env)
      (fun system _ => ¬ system.server.Active binding.id) system labels)
    {connection : ConnectionRow}
    (hconnection : connection ∈ (run env system labels).server.connections)
    (hbound : connection.bindingId = binding.id) :
    (∀ grant ∈ (run env system labels).server.grants, grant.connectionId = connection.id →
      grant.revokedAt ≠ none) ∧
    ∀ path authorization context,
      ((run env system labels).server.verify path authorization).1 = .ok context →
        context.connectionId ≠ connection.id := by
  have hcurbed := hreachable.curbed.2
  have hshut := hreachable.shutOut_run (hcurbed.barred binding hbinding hbarred) hidle
  have hcut := hshut connection hconnection hbound
  refine ⟨hcut, ?_⟩
  intro path authorization context hverify hsame
  obtain ⟨presented, -, accepting, token, grant, found, haccepted⟩ := Server.verify_ok hverify
  refine hcut grant haccepted.grant_mem ?_ haccepted.grant_live
  rw [haccepted.grant_connection, ← haccepted.context_connection, hsame]

end System

namespace OneConnection

/-- A grant is issued, and then the mailbox password is changed. -/
def passwordChanged : List Label :=
  prepared ++ signIn ++ approve ++ redeem ++
    [.request (.mailboxEvent "owner@example.com" .passwordChanged)]

def staleBinding : BindingRow :=
  ⟨0, "owner@example.com", "f1", .stale, some "The mailbox password was changed.", some 1000,
    none, none⟩

def boundConnection : ConnectionRow :=
  ⟨1, 0, "owner@example.com", "Assistant", [.mailRead], [], .enabled, none, none, none,
    some 1000, none⟩

/-- The mailbox's password was changed outside. A new sign-in does not get at the mailbox
either, as the connection counts as suspended. -/
theorem passwordChanged_shutOut :
    let later := System.run env (System.run env start passwordChanged) (signIn ++ redeem)
    (∀ grant ∈ later.server.grants, grant.connectionId = 1 → grant.revokedAt ≠ none) ∧
    ∀ path authorization context,
      (later.server.verify path authorization).1 = .ok context → context.connectionId ≠ 1 := by
  have hrows : staleBinding ∈ (System.run env start passwordChanged).server.bindings ∧
      boundConnection ∈ (System.run env
        (System.run env start passwordChanged) (signIn ++ redeem)).server.connections := by
    decide
  exact System.barredBinding_shutOut ⟨settings, some "k1", 1000, _, rfl⟩ hrows.1 rfl
    (signIn ++ redeem) (by decide) hrows.2 rfl

end OneConnection

end Mcp

end MailPanel
