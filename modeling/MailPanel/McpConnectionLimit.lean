import MailPanel.McpCreate

/-
The limit on the connections of a mailbox, under creations and revocations that overlap.
-/

namespace MailPanel

namespace Mcp

open RowTable

namespace Server

variable {s t : Server}

def settingsAndConnections (s : Server) := (s.settings, s.connections)

/-- No binding has more connections than the settings allow. -/
def WithinLimit (s : Server) : Prop :=
  ∀ bindingId, s.countNonRevokedForBinding bindingId ≤ s.settings.maxConnectionsPerMailbox

/-- The binding as it is now, or as it was read. -/
def current (s : Server) (binding : BindingRow) : BindingRow :=
  (s.findBinding binding.id).getD binding

/-- A verified password gives this binding a connection. -/
def Admits (s : Server) (binding : BindingRow) (result : VerifyResult) : Prop :=
  s.Stores result ∧ (s.current binding).state = .active

/-- The binding has room for one more connection. -/
def RoomFor (s : Server) (bindingId : Id) : Prop :=
  s.countNonRevokedForBinding bindingId < s.settings.maxConnectionsPerMailbox

/-- The settings stay, and no binding gets more connections. -/
structure NoMore (s t : Server) : Prop where
  settings : t.settings = s.settings
  count : ∀ bindingId, t.countNonRevokedForBinding bindingId ≤
    s.countNonRevokedForBinding bindingId

/-- One binding gets one more connection. -/
structure OneMore (s t : Server) (bindingId : Id) : Prop where
  settings : t.settings = s.settings
  count : ∀ id, t.countNonRevokedForBinding id =
    s.countNonRevokedForBinding id + if id = bindingId then 1 else 0

theorem NoMore.trans {u : Server} (hfirst : s.NoMore t) (hsecond : t.NoMore u) : s.NoMore u where
  settings := hsecond.settings.trans hfirst.settings
  count := fun bindingId => Nat.le_trans (hsecond.count bindingId) (hfirst.count bindingId)

theorem NoMore.of_eq (heq : t.settingsAndConnections = s.settingsAndConnections) : s.NoMore t := by
  simp only [settingsAndConnections, Prod.mk.injEq] at heq
  refine ⟨heq.1, ?_⟩
  intro bindingId
  rw [countNonRevokedForBinding, heq.2]
  exact Nat.le_refl _

theorem settingsAndConnections_of_surroundings (heq : t.surroundings = s.surroundings) :
    t.settingsAndConnections = s.settingsAndConnections := by
  simp only [surroundings, Prod.mk.injEq] at heq
  rw [settingsAndConnections, heq.1, heq.2.2.2]
  rfl

theorem NoMore.of_surroundings (heq : t.surroundings = s.surroundings) : s.NoMore t :=
  NoMore.of_eq (settingsAndConnections_of_surroundings heq)

theorem OneMore.of_eq {u : Server} {bindingId : Id}
    (heq : t.settingsAndConnections = s.settingsAndConnections) (h : t.OneMore u bindingId) :
    s.OneMore u bindingId := by
  simp only [settingsAndConnections, Prod.mk.injEq] at heq
  refine ⟨h.settings.trans heq.1, ?_⟩
  intro id
  rw [h.count, countNonRevokedForBinding, heq.2]
  rfl

theorem RoomFor.of_eq {bindingId : Id}
    (heq : t.settingsAndConnections = s.settingsAndConnections) (h : t.RoomFor bindingId) :
    s.RoomFor bindingId := by
  simp only [settingsAndConnections, Prod.mk.injEq] at heq
  rw [RoomFor, countNonRevokedForBinding, heq.1, heq.2] at h
  exact h

theorem WithinLimit.noMore (hs : s.WithinLimit) (h : s.NoMore t) : t.WithinLimit := by
  intro bindingId
  rw [h.settings]
  exact Nat.le_trans (h.count bindingId) (hs bindingId)

theorem WithinLimit.oneMore (hs : s.WithinLimit) {bindingId : Id} (h : s.OneMore t bindingId)
    (hroom : s.RoomFor bindingId) : t.WithinLimit := by
  intro id
  have hle := hs id
  rw [RoomFor] at hroom
  rw [h.settings, h.count]
  split
  · rename_i heq
    rw [heq]
    exact hroom
  · exact hle

theorem OneMore.exceeds {bindingId : Id} (h : s.OneMore t bindingId)
    (hfull : ¬s.RoomFor bindingId) : ¬t.WithinLimit := by
  intro hwithin
  have hle := hwithin bindingId
  rw [h.settings, h.count, if_pos rfl] at hle
  exact hfull hle

/- Revocation -/

theorem noMore_revoked (id : Id) (reason : Option String) :
    s.NoMore (s.setConnectionState id .revoked reason) := by
  refine ⟨rfl, ?_⟩
  intro bindingId
  rw [countNonRevokedForBinding, setConnectionState, updateWhere, List.countP_map]
  apply List.countP_mono_left
  intro row _ hrow
  by_cases hchanged : row.id = id ∧ row.state ≠ .revoked
  · simp [hchanged] at hrow
  · simpa [hchanged] using hrow

theorem noMore_revokeConnectionInternal (id : Id) (reason : String) :
    s.NoMore (s.revokeConnectionInternal id reason) := by
  have hgrants : s.NoMore (s.revokeAllGrantsForConnection id reason) :=
    NoMore.of_surroundings (surroundings_revokeAllGrants id reason)
  have henrollments : (s.revokeAllGrantsForConnection id reason).NoMore
      ((s.revokeAllGrantsForConnection id reason).revokeEnrollments id) :=
    NoMore.of_eq rfl
  have hstate := @noMore_revoked
    ((s.revokeAllGrantsForConnection id reason).revokeEnrollments id) id (some reason)
  have hrecord := (hgrants.trans henrollments).trans hstate
  exact ⟨hrecord.settings, hrecord.count⟩

theorem noMore_revoke (id : Id) (reason : Option String) : s.NoMore (s.revoke id reason).2 := by
  rw [revoke]
  split
  · exact NoMore.of_eq rfl
  · split
    · exact NoMore.of_eq rfl
    · exact noMore_revokeConnectionInternal id _

/- Creation -/

theorem oneMore_createConnection {connection : ConnectionRow} (hstate : connection.state = .enabled)
    (nextId : Id) :
    s.OneMore { s.createConnection connection with nextId } connection.bindingId := by
  refine ⟨rfl, ?_⟩
  intro id
  rw [countNonRevokedForBinding, createConnection, List.countP_append, countNonRevokedForBinding,
    List.countP_singleton]
  by_cases hid : connection.bindingId = id
  · simp [hid, hstate]
  · simp [hid, Ne.symm hid]

/-- A stored connection, and the hash that it waits for; or a credential that is not healthy,
and nothing stored. -/
theorem createConnectionAndIssue_cases (env : Env) (connectionExpiryDays : Option Nat)
    (request : CreateRequest) (binding : BindingRow) :
    (s.credentialHealth (s.current binding) ≠ .healthy ∧
      s.createConnectionAndIssue env connectionExpiryDays request binding = (s, [])) ∨
    s.credentialHealth (s.current binding) = .healthy ∧
      ∃ (created : Server) (pending : PendingIssue),
      s.createConnectionAndIssue env connectionExpiryDays request binding =
        (created, [.hashing .create pending]) ∧ s.OneMore created binding.id := by
  by_cases hhealthy : s.credentialHealth (s.current binding) = .healthy
  · obtain ⟨connection, hinsert, hbinding, hstate⟩ :=
      insertConnection_healthy hhealthy connectionExpiryDays request
    rw [createConnectionAndIssue, hinsert]
    refine Or.inr ⟨hhealthy, _, _, rfl, ?_⟩
    rw [← hbinding]
    have hone := @oneMore_createConnection s connection hstate (s.nextId + 1)
    exact ⟨hone.settings, hone.count⟩
  · obtain ⟨error, hinsert⟩ := insertConnection_unhealthy hhealthy connectionExpiryDays request
    rw [createConnectionAndIssue, hinsert]
    exact Or.inl ⟨hhealthy, rfl⟩

theorem noMore_finishHash (operation : IssueOperation) (pending : PendingIssue) :
    s.NoMore (s.finishHash operation pending) := by
  have hnoted : s.NoMore (s.noted operation pending.connectionId) := by
    cases operation <;> exact NoMore.of_eq rfl
  rw [finishHash]
  split
  · exact NoMore.of_eq rfl
  · rename_i issued heq
    simp only [finishIssue] at heq
    split at heq
    · rename_i previous _ _
      cases heq
      obtain ⟨history, hreset⟩ := resetEnrollment_kept (s.noted operation pending.connectionId)
        previous.id pending.setupPassword
        ((s.noted operation pending.connectionId).addSeconds
          (pending.setupCredentialTtlHours * 3600))
      rw [hreset]
      exact hnoted.trans (NoMore.of_eq rfl)
    · simp only [issueEnrollment, Option.map_map, Option.map_eq_some_iff] at heq
      obtain ⟨connection, -, heq⟩ := heq
      cases heq
      exact hnoted.trans (NoMore.of_eq rfl)

/-- A binding that `create` goes on with has room when it is resolved. Between this check and
the insertion lies a wait, and that is where the limit is lost. -/
theorem beginCreate_room {request : CreateRequest} {binding : BindingRow} {resolved : Server}
    (hbegin : s.beginCreate request = (.ok binding, resolved)) : resolved.RoomFor binding.id := by
  have hsettings : (s.beginCreate request).2.settings = s.settings :=
    congrArg Prod.fst (surroundings_beginCreate s request)
  rw [hbegin] at hsettings
  rw [beginCreate] at hbegin
  split at hbegin
  · cases hbegin
  · split at hbegin
    · cases hbegin
    · split at hbegin
      · cases hbegin
      · split at hbegin
        · cases hbegin
        · rename_i hroom
          cases hbegin
          rw [RoomFor, hsettings]
          exact Nat.not_le.mp hroom

/-- A request to create a connection keeps to the limit until it waits: it stores no connection,
or one more where there was room. -/
theorem receive_create_cases (env : Env) (request : CreateRequest) :
    s.NoMore (s.receive env (.create request)).1 ∨
      ∃ bindingId, s.RoomFor bindingId ∧
        s.OneMore (s.receive env (.create request)).1 bindingId := by
  have hsame := surroundings_beginCreate s request
  rw [receive]
  split
  · rename_i heq
    rw [heq] at hsame
    exact Or.inl (NoMore.of_surroundings hsame)
  · rename_i binding resolved hbegin
    rw [hbegin] at hsame
    have hresolved : s.NoMore resolved := NoMore.of_surroundings hsame
    have hkept := settingsAndConnections_of_surroundings hsame
    split
    · rcases @createConnectionAndIssue_cases resolved env s.settings.connectionExpiryDays request
        binding with ⟨-, heq⟩ | ⟨-, created, pending, heq, hone⟩
      · rw [heq]
        exact Or.inl hresolved
      · rw [heq]
        exact Or.inr ⟨binding.id, (beginCreate_room hbegin).of_eq hkept, hone.of_eq hkept⟩
    · split
      · exact Or.inl hresolved
      · exact Or.inl hresolved

theorem current_id (binding : BindingRow) : (s.current binding).id = binding.id := by
  rw [current]
  cases hfind : s.findBinding binding.id with
  | none => rfl
  | some found => exact key_of_lookup hfind

theorem current_state {binding : BindingRow}
    (hstates : t.bindingState binding.id = s.bindingState binding.id) :
    (t.current binding).state = (s.current binding).state := by
  have hstate : ∀ u : Server, (u.current binding).state =
      (u.bindingState binding.id).getD binding.state := by
    intro u
    rw [current, bindingState]
    cases u.findBinding binding.id with
    | none => rfl
    | some found => rfl
  rw [hstate, hstate, hstates]

theorem proceed_provisioned (env : Env) (connectionExpiryDays : Option Nat)
    (request : CreateRequest) {binding : BindingRow} {password : String} {result : VerifyResult}
    {provisioned : Server}
    (hprovision : s.finishProvision binding.id password result = (.ok (), provisioned)) :
    s.proceed env (.provisioning connectionExpiryDays request binding password)
        (.verified result) =
      some (provisioned.createConnectionAndIssue env connectionExpiryDays request binding) := by
  simp only [proceed, hprovision]

theorem proceed_refused (env : Env) (connectionExpiryDays : Option Nat)
    (request : CreateRequest) {binding : BindingRow} {password : String} {result : VerifyResult}
    {error : ControlError}
    (hprovision : s.finishProvision binding.id password result = (.error error, s)) :
    s.proceed env (.provisioning connectionExpiryDays request binding password)
        (.verified result) = some (s, []) := by
  simp only [proceed, hprovision]

/-- What comes back from the mail server gives the binding one more connection, or none. -/
theorem proceed_provisioning (env : Env) (connectionExpiryDays : Option Nat)
    (request : CreateRequest) (binding : BindingRow) (password : String)
    (result : VerifyResult) :
    ∃ server next, s.proceed env (.provisioning connectionExpiryDays request binding password)
        (.verified result) = some (server, next) ∧
      (∀ task ∈ next, ∃ pending, task = .hashing .create pending) ∧
      ((s.Admits binding result ∧ s.OneMore server binding.id) ∨
        ¬s.Admits binding result ∧ s.NoMore server) := by
  by_cases hstores : s.Stores result
  · obtain ⟨provisioned, hprovision, hsame, hstates, hhealth⟩ :=
      health_provisioned hstores binding.id password
    have hadmits : s.Admits binding result ↔
        provisioned.credentialHealth (provisioned.current binding) = .healthy := by
      rw [Admits, and_iff_right hstores, hhealth _ (current_id binding),
        current_state (hstates binding.id)]
    have hkept := settingsAndConnections_of_surroundings hsame
    rw [proceed_provisioned env connectionExpiryDays request hprovision]
    rcases @createConnectionAndIssue_cases provisioned env connectionExpiryDays request binding
      with ⟨hunhealthy, heq⟩ | ⟨hhealthy, created, pending, heq, hone⟩
    · rw [heq]
      exact ⟨provisioned, [], rfl, fun task htask => absurd htask List.not_mem_nil,
        Or.inr ⟨fun h => hunhealthy (hadmits.mp h), NoMore.of_eq hkept⟩⟩
    · rw [heq]
      refine ⟨created, [.hashing .create pending], rfl, ?_,
        Or.inl ⟨hadmits.mpr hhealthy, hone.of_eq hkept⟩⟩
      intro task htask
      exact ⟨pending, List.mem_singleton.mp htask⟩
  · obtain ⟨error, hprovision⟩ := finishProvision_refused hstores binding.id password
    rw [proceed_refused env connectionExpiryDays request hprovision]
    exact ⟨s, [], rfl, fun task htask => absurd htask List.not_mem_nil,
      Or.inr ⟨fun h => hstores h.1, NoMore.of_eq rfl⟩⟩

end Server

namespace System

variable {env : Env} {system : System} {label : Label}

/-- What comes back from the mail server for a new connection finds room for it. -/
def FindsRoom (system : System) : Label → Prop
  | .resume index (.verified result) =>
      ∀ connectionExpiryDays request binding password, system.tasks[index]? =
        some (.provisioning connectionExpiryDays request binding password) →
      system.server.Admits binding result → system.server.RoomFor binding.id
  | _ => True

/-- Requests that create and revoke connections, and what they wait for. -/
def createsOrRevokes : Label → Bool
  | .request (.create _) | .request (.revoke _ _) | .resume _ _ | .advance _ => true
  | _ => false

/-- Only creations are under way. -/
def Creating (system : System) : Prop :=
  ∀ task ∈ system.tasks,
    (∃ connectionExpiryDays request binding password,
      task = .provisioning connectionExpiryDays request binding password) ∨
    ∃ pending, task = .hashing .create pending

/-- A step of creations and revocations gives no binding a connection more, or one to a
binding with room, or one that comes back from the mail server. -/
inductive Admission (system : System) (label : Label) (next : Server) : Prop where
  | none (hnoMore : system.server.NoMore next)
  | roomy (bindingId : Id) (hroom : system.server.RoomFor bindingId)
      (hone : system.server.OneMore next bindingId)
  | verified (index : Nat) (result : VerifyResult) (connectionExpiryDays : Option Nat)
      (request : CreateRequest) (binding : BindingRow) (password : String)
      (hlabel : label = .resume index (.verified result))
      (htask : system.tasks[index]? =
        some (.provisioning connectionExpiryDays request binding password))
      (hadmits : system.server.Admits binding result)
      (hone : system.server.OneMore next binding.id)

/-- The step of a wait that ends, by what its task makes of the reply. -/
theorem step_resume {index : Nat} {reply : Reply} {task : Task} {server : Server}
    {next : List Task} (htask : system.tasks[index]? = some task)
    (hproceed : system.server.proceed env task reply = some (server, next)) :
    system.step env (.resume index reply) = ⟨server, system.tasks.eraseIdx index ++ next⟩ := by
  simp only [step, htask, hproceed]

theorem step_resume_none {index : Nat} {reply : Reply}
    (hnone : ∀ task, system.tasks[index]? = some task →
      system.server.proceed env task reply = none) :
    system.step env (.resume index reply) = system := by
  simp only [step]
  cases htask : system.tasks[index]? with
  | none => rfl
  | some task => simp only [hnone task htask]

theorem step_provisioning {index : Nat} {connectionExpiryDays : Option Nat}
    {request : CreateRequest} {binding : BindingRow} {password : String}
    (htask : system.tasks[index]? =
      some (.provisioning connectionExpiryDays request binding password))
    (result : VerifyResult) :
    (∃ next, (system.step env (.resume index (.verified result))).tasks =
      system.tasks.eraseIdx index ++ next ∧ ∀ task ∈ next, ∃ pending,
        task = .hashing .create pending) ∧
    ((system.server.Admits binding result ∧ system.server.OneMore
        (system.step env (.resume index (.verified result))).server binding.id) ∨
      ¬system.server.Admits binding result ∧ system.server.NoMore
        (system.step env (.resume index (.verified result))).server) := by
  obtain ⟨server, next, hproceed, hnext, hcases⟩ := @Server.proceed_provisioning system.server env
    connectionExpiryDays request binding password result
  rw [step_resume htask hproceed]
  exact ⟨⟨next, rfl, hnext⟩, hcases⟩

theorem step_hashing {index : Nat} {pending : PendingIssue}
    (htask : system.tasks[index]? = some (.hashing .create pending)) :
    system.step env (.resume index .done) =
      ⟨system.server.finishHash .create pending, system.tasks.eraseIdx index⟩ := by
  have hproceed : system.server.proceed env (.hashing .create pending) .done =
      some (system.server.finishHash .create pending, []) := rfl
  rw [step_resume htask hproceed, List.append_nil]

theorem creating_eraseIdx (hcreating : system.Creating) (index : Nat) {server : Server}
    {next : List Task} (hnext : ∀ task ∈ next, ∃ pending, task = .hashing .create pending) :
    Creating ⟨server, system.tasks.eraseIdx index ++ next⟩ := by
  intro task htask
  rcases List.mem_append.mp htask with hold | hnew
  · exact hcreating task (List.mem_of_mem_eraseIdx hold)
  · exact Or.inr (hnext task hnew)

/-- A wait of a creation ends with the mail server's answer, with a hash, or not at all. -/
theorem resume_admission (hcreating : system.Creating) (index : Nat) (reply : Reply) :
    Admission system (.resume index reply) (system.step env (.resume index reply)).server ∧
      (system.step env (.resume index reply)).Creating := by
  have hstill : system.step env (.resume index reply) = system →
      Admission system (.resume index reply) (system.step env (.resume index reply)).server ∧
        (system.step env (.resume index reply)).Creating := by
    intro heq
    rw [heq]
    exact ⟨.none (Server.NoMore.of_eq rfl), hcreating⟩
  cases htask : system.tasks[index]? with
  | none =>
      apply hstill
      apply step_resume_none
      intro task hfound
      rw [htask] at hfound
      cases hfound
  | some task =>
      have hwrong : system.server.proceed env task reply = none →
          system.step env (.resume index reply) = system := by
        intro hnone
        apply step_resume_none
        intro other hother
        rw [htask] at hother
        rw [← Option.some.inj hother]
        exact hnone
      have hthrown : reply = .thrown → Admission system (.resume index reply)
          (system.step env (.resume index reply)).server ∧
            (system.step env (.resume index reply)).Creating := by
        intro heq
        have hproceed : system.server.proceed env task reply = some (system.server, []) := by
          rw [heq]
          cases task <;> rfl
        rw [step_resume htask hproceed]
        exact ⟨.none (Server.NoMore.of_eq rfl), creating_eraseIdx hcreating index
          fun task hmem => absurd hmem List.not_mem_nil⟩
      rcases hcreating task (List.mem_of_getElem? htask) with
        ⟨connectionExpiryDays, request, binding, password, rfl⟩ | ⟨pending, rfl⟩
      · cases reply with
        | verified result =>
            obtain ⟨⟨next, htasks, hnext⟩, hcases⟩ := @step_provisioning env system index
              connectionExpiryDays request binding password htask result
            constructor
            · rcases hcases with ⟨hadmits, hone⟩ | ⟨-, hnoMore⟩
              · exact .verified index result connectionExpiryDays request binding password rfl
                  htask hadmits hone
              · exact .none hnoMore
            · rw [Creating, htasks]
              exact @creating_eraseIdx system hcreating index system.server next hnext
        | thrown => exact hthrown rfl
        | done => exact hstill (hwrong rfl)
        | document document => exact hstill (hwrong rfl)
      · cases reply with
        | done =>
            rw [step_hashing htask]
            refine ⟨.none (Server.noMore_finishHash .create pending), ?_⟩
            rw [← List.append_nil (system.tasks.eraseIdx index)]
            exact creating_eraseIdx hcreating index fun task hmem => absurd hmem List.not_mem_nil
        | thrown => exact hthrown rfl
        | verified result => exact hstill (hwrong rfl)
        | document document => exact hstill (hwrong rfl)

/-- What a request to create a connection leaves waiting: the provisioning of its mailbox, or
the hash of its enrollment. -/
theorem receive_create_tasks (s : Server) (env : Env) (request : CreateRequest) :
    ∀ task ∈ (s.receive env (.create request)).2,
      (∃ connectionExpiryDays request binding password,
        task = .provisioning connectionExpiryDays request binding password) ∨
      ∃ pending, task = .hashing .create pending := by
  intro task htask
  rw [Server.receive] at htask
  split at htask
  · exact absurd htask List.not_mem_nil
  · rename_i binding resolved _
    split at htask
    · rcases @Server.createConnectionAndIssue_cases resolved env
        s.settings.connectionExpiryDays request binding with ⟨-, heq⟩ | ⟨-, _, pending, heq, -⟩
      · rw [heq] at htask
        exact absurd htask List.not_mem_nil
      · rw [heq] at htask
        exact Or.inr ⟨pending, List.mem_singleton.mp htask⟩
    · split at htask
      · exact absurd htask List.not_mem_nil
      · exact Or.inl ⟨_, _, _, _, List.mem_singleton.mp htask⟩

theorem step_admission (hcreating : system.Creating) (hlabel : createsOrRevokes label = true) :
    Admission system label (system.step env label).server ∧
      (system.step env label).Creating := by
  cases label with
  | request request =>
      cases request with
      | create request =>
          refine ⟨?_, ?_⟩
          · rcases @Server.receive_create_cases system.server env request with
              hnoMore | ⟨bindingId, hroom, hone⟩
            · exact .none hnoMore
            · exact .roomy bindingId hroom hone
          · intro task htask
            rcases List.mem_append.mp htask with hold | hnew
            · exact hcreating task hold
            · exact receive_create_tasks system.server env request task hnew
      | revoke id reason =>
          refine ⟨.none (Server.noMore_revoke id reason), ?_⟩
          intro task htask
          exact hcreating task (by simpa [step, Server.receive] using htask)
      | _ => cases hlabel
  | resume index reply => exact resume_admission hcreating index reply
  | advance milliseconds => exact ⟨.none (Server.NoMore.of_eq rfl), hcreating⟩
  | housekeeping => cases hlabel
  | restart vaultKeyId => cases hlabel

/-- With room for what comes back, a step keeps to the limit. -/
theorem WithinLimit.step (hcreating : system.Creating) (hlabel : createsOrRevokes label = true)
    (hwithin : system.server.WithinLimit) (hroom : system.FindsRoom label) :
    (system.step env label).server.WithinLimit := by
  rcases (@step_admission env system label hcreating hlabel).1 with
    hnoMore | ⟨bindingId, hroom, hone⟩ |
      ⟨index, result, connectionExpiryDays, request, binding, password, hresume, htask, hadmits,
        hone⟩
  · exact hwithin.noMore hnoMore
  · exact hwithin.oneMore hone hroom
  · rw [hresume] at hroom
    exact hwithin.oneMore hone (hroom connectionExpiryDays request binding password htask hadmits)

/-- Without room for what comes back, it goes past the limit. -/
theorem findsRoom_of_step (hwithin : (system.step env label).server.WithinLimit) :
    system.FindsRoom label := by
  simp only [FindsRoom]
  split
  · rename_i index result
    intro connectionExpiryDays request binding password htask hadmits
    by_contra hfull
    rcases (@step_provisioning env system index connectionExpiryDays request binding password
      htask result).2 with ⟨-, hone⟩ | ⟨hrefused, -⟩
    · exact hone.exceeds hfull hwithin
    · exact hrefused hadmits
  · trivial

/-- Along creations and revocations, the limit holds at every point if and only if every
connection that comes back from the mail server finds room. The count is read before the
password is checked there, and the row is stored after it. -/
theorem withinLimit_iff_findsRoom (env : Env) {start : System}
    (hstart : start.server.WithinLimit) (hcreating : start.Creating) {labels : List Label}
    (hlabels : ∀ label ∈ labels, createsOrRevokes label = true) :
    (∀ before after, labels = before ++ after → (run env start before).server.WithinLimit) ↔
      StepRun.Meets (System.step env) FindsRoom start labels := by
  induction labels generalizing start with
  | nil =>
      refine iff_of_true ?_ trivial
      intro before after heq
      rw [(List.append_eq_nil_iff.mp heq.symm).1]
      exact hstart
  | cons label labels ih =>
      have hlabel := hlabels label List.mem_cons_self
      have hrest : ∀ other ∈ labels, createsOrRevokes other = true :=
        fun other hother => hlabels other (List.mem_cons_of_mem label hother)
      have hnext := (@step_admission env start label hcreating hlabel).2
      constructor
      · intro hwithin
        have hstep : (start.step env label).server.WithinLimit := hwithin [label] labels rfl
        refine ⟨findsRoom_of_step hstep, (ih hstep hnext hrest).mp ?_⟩
        intro before after heq
        exact hwithin (label :: before) after (by rw [heq]; rfl)
      · rintro ⟨hroom, hmeets⟩ before after heq
        have hstep := @WithinLimit.step env start label hcreating hlabel hstart hroom
        cases before with
        | nil => exact hstart
        | cons first before =>
            obtain ⟨rfl, htail⟩ := List.cons.inj heq
            exact (ih hstep hnext hrest).mpr hmeets before after htail

end System

namespace OneConnection

open Server

def onlyOne : McpSettings := { settings with maxConnectionsPerMailbox := 1 }

def unused : System := System.initial onlyOne (some "k1") 1000

theorem unused_withinLimit : unused.server.WithinLimit :=
  fun _ => Nat.zero_le _

theorem unused_creating : unused.Creating :=
  fun _ hmem => absurd hmem List.not_mem_nil

/-- Where every connection is revoked, there is room. -/
theorem findsRoom_of_revoked {system : System}
    (hsettings : system.server.settings = onlyOne)
    (hrevoked : ∀ row ∈ system.server.connections, row.state = .revoked) (label : Label) :
    system.FindsRoom label := by
  simp only [System.FindsRoom]
  split
  · intro _ _ binding _ _ _
    have hnone : system.server.countNonRevokedForBinding binding.id = 0 := by
      rw [countNonRevokedForBinding, List.countP_eq_zero]
      intro row hrow
      simp [hrevoked row hrow]
    rw [RoomFor, hnone, hsettings]
    exact Nat.one_pos
  · trivial

/-- A connection is created and revoked, and then another one is created. -/
def oneByOne : List Label :=
  [.request (.create (again "f1")), .resume 0 (.verified verified), .resume 0 .done,
    .request (.revoke 1 none), .request (.create (again "f1")), .resume 0 (.verified verified)]

/-- A connection is created and revoked, and then another one is created, with room for one. -/
theorem oneByOne_withinLimit : (System.run env unused oneByOne).server.WithinLimit := by
  refine (System.withinLimit_iff_findsRoom env unused_withinLimit unused_creating
    (by decide)).mpr ?_ oneByOne [] (List.append_nil _).symm
  refine ⟨trivial, ?_, trivial, trivial, trivial, ?_, trivial⟩
  · exact findsRoom_of_revoked (by decide) (by decide) _
  · exact findsRoom_of_revoked (by decide) (by decide) _

/-- Two creations are verified at the same time. -/
def atOnce : List Label :=
  [.request (.create (again "f1")), .request (.create (again "f1")),
    .resume 0 (.verified verified), .resume 0 (.verified verified)]

/-- Two creations at once with room for one: both pass the count before the first has its row. -/
theorem atOnce_exceeds_limit : ¬∀ (start : System) (labels : List Label),
    start.server.WithinLimit → start.tasks = [] →
    (∀ label ∈ labels, System.createsOrRevokes label = true) →
    (System.run env start labels).server.WithinLimit := by
  intro hclaim
  have hle := hclaim unused atOnce unused_withinLimit rfl (by decide) 0
  have htwo : (System.run env unused atOnce).server.countNonRevokedForBinding 0 = 2 := by
    decide
  have hone : (System.run env unused atOnce).server.settings.maxConnectionsPerMailbox = 1 := by
    decide
  rw [htwo, hone] at hle
  exact absurd hle (by decide)

end OneConnection

end Mcp

end MailPanel
