import MailPanel.EffectRun

/-
The wrapper over the SQLite driver.  A transaction that is opened within another is a
savepoint, and what fails takes its writes back.
-/

namespace MailPanel

namespace Database

/-- A statement is refused from outside: a full disk, a locked file, the end of the process.
SQLite may have rolled the whole transaction back with it. -/
structure Fault where
  endsTransaction : Bool
deriving DecidableEq, Repr

/-- What a piece of code ends with when it does not return: an error that the caller threw, or
one of the errors of SQLite and of the wrapper around it. -/
inductive Failure (ε : Type) where
  | thrown (error : ε)
  | refused (fault : Fault)
  | withinTransaction
  | noTransaction
  | noSavepoint
deriving DecidableEq, Repr

/-- What a connection sees, what it goes back to (innermost savepoint first, the start of the
transaction last) and the faults that its next statements meet. -/
structure Connection (Content : Type) where
  content : Content
  saved : List Content
  faults : List (Option Fault)
deriving DecidableEq, Repr

variable {ε Content α β : Type}

namespace Connection

def isTransaction (connection : Connection Content) : Bool := !connection.saved.isEmpty

/-- What the file holds. -/
def durable (connection : Connection Content) : Content :=
  connection.saved.getLast?.getD connection.content

/-- SQLite takes the open transaction back. -/
def ended (connection : Connection Content) : Connection Content :=
  { connection with content := connection.durable, saved := [] }

end Connection

/-- Code that uses a connection. -/
abbrev Code (ε Content α : Type) := Effect (Failure ε) (Connection Content) α

/-- A statement that is not refused: it takes effect as a whole, or throws and leaves everything
as it was. -/
def uninterrupted (effect : Connection Content → Except (Failure ε) (α × Connection Content)) :
    Code ε Content α :=
  ExceptT.mk fun connection =>
    match effect connection with
    | .ok (value, after) => (.ok value, after)
    | .error failure => (.error failure, connection)

def exec (effect : Connection Content → Except (Failure ε) (α × Connection Content)) :
    Code ε Content α :=
  ExceptT.mk fun connection =>
    match connection.faults with
    | [] => (uninterrupted effect).run.run connection
    | none :: faults => (uninterrupted effect).run.run { connection with faults := faults }
    | some fault :: faults =>
        (.error (.refused fault),
          if fault.endsTransaction then { connection.ended with faults := faults }
          else { connection with faults := faults })

/-- A statement on the tables: one that fails changes nothing. -/
def statement (effect : Content → Except ε (α × Content)) : Code ε Content α :=
  exec fun connection =>
    match effect connection.content with
    | .ok (value, content) => .ok (value, { connection with content := content })
    | .error error => .error (.thrown error)

def begin : Code ε Content Unit :=
  exec fun connection =>
    if connection.isTransaction then .error .withinTransaction
    else .ok ((), { connection with saved := [connection.content] })

def commit : Code ε Content Unit :=
  exec fun connection =>
    if connection.isTransaction then .ok ((), { connection with saved := [] })
    else .error .noTransaction

/-- `ROLLBACK` fails only where no transaction is open. -/
def rollback : Code ε Content Unit :=
  uninterrupted fun connection =>
    if connection.isTransaction then .ok ((), connection.ended) else .error .noTransaction

def savepoint : Code ε Content Unit :=
  exec fun connection =>
    .ok ((), { connection with saved := connection.content :: connection.saved })

/-- The innermost savepoint goes; what `BEGIN` has opened is no savepoint. -/
def releaseSavepoint : Code ε Content Unit :=
  exec fun connection =>
    match connection.saved with
    | _ :: outer :: outermost => .ok ((), { connection with saved := outer :: outermost })
    | _ => .error .noSavepoint

def rollbackToSavepoint : Code ε Content Unit :=
  uninterrupted fun connection =>
    match connection.saved with
    | inner :: _ :: _ => .ok ((), { connection with content := inner })
    | _ => .error .noSavepoint

/-- The release after a rollback to the savepoint, which has nothing to write. -/
def releaseRolledBack : Code ε Content Unit :=
  uninterrupted fun connection =>
    match connection.saved with
    | _ :: outer :: outermost => .ok ((), { connection with saved := outer :: outermost })
    | _ => .error .noSavepoint

def rollbackBestEffort : Code ε Content Unit :=
  tryCatch rollback fun _ => pure ()

def rollbackSavepointBestEffort : Code ε Content Unit :=
  tryCatch (do rollbackToSavepoint; releaseRolledBack) fun _ => pure ()

def transaction (fn : Code ε Content α) : Code ε Content α := do
  if (← get).isTransaction then
    savepoint
    tryCatch (do let result ← fn; releaseSavepoint; return result)
      fun err => do rollbackSavepointBestEffort; throw err
  else
    begin
    tryCatch (do let result ← fn; commit; return result)
      fun err => do rollbackBestEffort; throw err

/- What statements leave -/

section Statements

variable {before after : Connection Content}

/-- All that was written in the transaction is gone, and the transaction with it. -/
def Connection.Lost (before after : Connection Content) : Prop :=
  after.saved = [] ∧ after.content = before.durable

/-- Nothing has been written, or all is lost. -/
def Connection.Undone (before after : Connection Content) : Prop :=
  (after.saved = before.saved ∧ after.content = before.content) ∨ before.Lost after

/-- Within an open transaction nothing that is done reaches the file. -/
theorem Connection.durable_of_saved (hsaved : after.saved = before.saved)
    (hopen : before.saved ≠ []) : after.durable = before.durable := by
  rw [durable, durable, hsaved, List.getLast?_eq_some_getLast hopen]
  rfl

/-- Without an open transaction the file holds what the connection sees. -/
theorem Connection.durable_of_nil (hsaved : before.saved = []) :
    before.durable = before.content := by
  rw [durable, hsaved]
  rfl

variable {effect : Connection Content → Except (Failure ε) (α × Connection Content)}
  {value : α} {failure : Failure ε}

theorem run_uninterrupted_ok (heffect : effect before = .ok (value, after)) :
    (uninterrupted effect).run.run before = (.ok value, after) := by
  unfold uninterrupted
  simp only [ExceptT.run_mk, StateT.run, heffect]

theorem run_uninterrupted_error (heffect : effect before = .error failure) :
    (uninterrupted effect).run.run before = (.error failure, before) := by
  unfold uninterrupted
  simp only [ExceptT.run_mk, StateT.run, heffect]

/-- A call that nothing can interrupt returns what its effect returns. -/
theorem returns_uninterrupted_iff :
    (uninterrupted effect).Returns before value after ↔ effect before = .ok (value, after) := by
  rw [Effect.Returns]
  cases heffect : effect before with
  | error failure =>
      rw [run_uninterrupted_error heffect]
      refine iff_of_false (fun hreturns => ?_) (fun hok => ?_)
      · cases (Prod.mk.inj hreturns).1
      · cases hok
  | ok found =>
      rw [run_uninterrupted_ok heffect, Prod.mk.injEq, Except.ok.injEq, Except.ok.injEq,
        Prod.mk.injEq]

/-- When such a call throws, nothing has happened. -/
theorem throws_uninterrupted (hthrows : (uninterrupted effect).Throws before failure after) :
    after = before := by
  rw [Effect.Throws] at hthrows
  cases heffect : effect before with
  | error found =>
      rw [run_uninterrupted_error heffect] at hthrows
      exact (Prod.mk.inj hthrows).2.symm
  | ok found =>
      rw [run_uninterrupted_ok heffect] at hthrows
      cases (Prod.mk.inj hthrows).1

/-- A statement that returns has had its effect, with whatever faults are still to come. -/
theorem exec_returns (hreturns : (exec effect).Returns before value after) :
    ∃ faults, effect { before with faults := faults } = .ok (value, after) := by
  obtain ⟨content, saved, faults⟩ := before
  cases faults with
  | nil => exact ⟨[], returns_uninterrupted_iff.mp hreturns⟩
  | cons fault faults =>
      cases fault with
      | none => exact ⟨faults, returns_uninterrupted_iff.mp hreturns⟩
      | some fault => cases (Prod.mk.inj hreturns).1

/-- A statement that throws has had no effect, or the database has undone the whole transaction
on its own. -/
theorem exec_throws (hthrows : (exec effect).Throws before failure after) :
    before.Undone after := by
  obtain ⟨content, saved, faults⟩ := before
  cases faults with
  | nil =>
      obtain rfl := throws_uninterrupted hthrows
      exact Or.inl ⟨rfl, rfl⟩
  | cons fault faults =>
      cases fault with
      | none =>
          obtain rfl := throws_uninterrupted hthrows
          exact Or.inl ⟨rfl, rfl⟩
      | some fault =>
          obtain ⟨-, rfl⟩ := Prod.mk.inj hthrows
          cases fault.endsTransaction with
          | true => exact Or.inr ⟨rfl, rfl⟩
          | false => exact Or.inl ⟨rfl, rfl⟩

end Statements

/-- Code that leaves the open transaction and its savepoints alone, unless SQLite takes them
away from it with an error. -/
structure Neat (code : Code ε Content α) : Prop where
  returns : ∀ {before after value}, code.Returns before value after → after.saved = before.saved
  throws : ∀ {before after failure}, code.Throws before failure after →
    after.saved = before.saved ∨ before.Lost after

/-- Code that does nothing leaves the transactions as they are. -/
theorem neat_pure (value : α) : Neat (pure value : Code ε Content α) where
  returns hreturns := by
    obtain ⟨-, rfl⟩ := Effect.returns_pure_iff.mp hreturns
    rfl
  throws hthrows := absurd hthrows Effect.not_throws_pure

theorem neat_throw (failure : Failure ε) : Neat (throw failure : Code ε Content α) where
  returns hreturns := absurd hreturns Effect.not_returns_throw
  throws hthrows := by
    obtain ⟨-, rfl⟩ := Effect.throws_throw_iff.mp hthrows
    exact Or.inl rfl

/-- The rule of sequence: code that keeps to its transaction does so when its parts do. -/
theorem Neat.bind {first : Code ε Content α} {next : α → Code ε Content β} (hfirst : Neat first)
    (hnext : ∀ value, Neat (next value)) : Neat (first >>= next) where
  returns hreturns := by
    obtain ⟨value, middle, hleft, hright⟩ := Effect.returns_bind_iff.mp hreturns
    exact ((hnext value).returns hright).trans (hfirst.returns hleft)
  throws {before after failure} hthrows := by
    rcases Effect.throws_bind_iff.mp hthrows with hleft | ⟨value, middle, hleft, hright⟩
    · exact hfirst.throws hleft
    · have hmiddle := hfirst.returns hleft
      rcases (hnext value).throws hright with hkept | ⟨hnil, hcontent⟩
      · exact Or.inl (hkept.trans hmiddle)
      · by_cases hopen : before.saved = []
        · exact Or.inl (hnil.trans hopen.symm)
        · rw [Connection.durable_of_saved hmiddle hopen] at hcontent
          exact Or.inr ⟨hnil, hcontent⟩

/-- A statement inside a body acts on the contents and leaves the open transactions alone. -/
theorem statement_returns {effect : Content → Except ε (α × Content)} {value : α}
    {before after : Connection Content}
    (hreturns : (statement effect).Returns before value after) :
    effect before.content = .ok (value, after.content) ∧ after.saved = before.saved := by
  obtain ⟨faults, heffect⟩ := exec_returns hreturns
  dsimp only at heffect
  rcases hcontent : effect before.content with error | ⟨found, content⟩
  · rw [hcontent] at heffect
    cases heffect
  · rw [hcontent] at heffect
    obtain ⟨rfl, rfl⟩ := Prod.mk.inj (Except.ok.inj heffect)
    exact ⟨rfl, rfl⟩

/-- Every statement keeps to its transaction. -/
theorem neat_statement (effect : Content → Except ε (α × Content)) :
    Neat (statement effect) where
  returns hreturns := (statement_returns hreturns).2
  throws hthrows := (exec_throws hthrows).imp_left And.left

/- Transactions -/

/-- `transaction` is a bracket with one of two pairs of statements, chosen by whether a
transaction is open. -/
theorem transaction_run (fn : Code ε Content α) (before : Connection Content) :
    (transaction fn).run.run before =
      (if before.isTransaction then
        Effect.bracket savepoint releaseSavepoint rollbackSavepointBestEffort fn
      else Effect.bracket begin commit rollbackBestEffort fn).run.run before := by
  have hget : ∀ next : Connection Content → Code ε Content α,
      (get >>= next).run.run before = (next before).run.run before := by
    intro next
    rw [Effect.run_bind]
    rfl
  rw [transaction, hget]
  cases before.isTransaction with
  | true => rfl
  | false => rfl

/-- A transaction is open when there is something to go back to. -/
theorem isTransaction_iff {connection : Connection Content} :
    connection.isTransaction = true ↔ connection.saved ≠ [] := by
  rw [Connection.isTransaction, Bool.not_eq_true', List.isEmpty_eq_false_iff]

/-- What is open after `BEGIN` or `SAVEPOINT`. -/
def Connection.Opened (before after : Connection Content) : Prop :=
  after.content = before.content ∧ after.saved = before.content :: before.saved

variable {before after : Connection Content}

/-- After the statement that opens it a transaction is open, and nothing else has changed. -/
theorem begin_returns (hreturns : (begin : Code ε Content Unit).Returns before () after) :
    before.Opened after := by
  obtain ⟨faults, heffect⟩ := exec_returns hreturns
  dsimp only at heffect
  split at heffect
  · cases heffect
  · rename_i hopen
    obtain ⟨-, rfl⟩ := Prod.mk.inj (Except.ok.inj heffect)
    have hnil : before.saved = [] := not_not.mp (mt isTransaction_iff.mpr hopen)
    exact ⟨rfl, by rw [hnil]⟩

/-- The same for a savepoint inside an open transaction. -/
theorem savepoint_returns (hreturns : (savepoint : Code ε Content Unit).Returns before () after) :
    before.Opened after := by
  obtain ⟨faults, heffect⟩ := exec_returns hreturns
  obtain ⟨-, rfl⟩ := Prod.mk.inj (Except.ok.inj heffect)
  exact ⟨rfl, rfl⟩

/-- A commit keeps the contents and closes the transaction. -/
theorem commit_returns (hreturns : (commit : Code ε Content Unit).Returns before () after) :
    after.content = before.content ∧ after.saved = [] := by
  obtain ⟨faults, heffect⟩ := exec_returns hreturns
  dsimp only at heffect
  split at heffect
  · obtain ⟨-, rfl⟩ := Prod.mk.inj (Except.ok.inj heffect)
    exact ⟨rfl, rfl⟩
  · cases heffect

/-- A released savepoint keeps the contents, and what was open around it stays open. -/
theorem releaseSavepoint_returns
    (hreturns : (releaseSavepoint : Code ε Content Unit).Returns before () after) :
    after.content = before.content ∧ after.saved = before.saved.tail := by
  obtain ⟨faults, heffect⟩ := exec_returns hreturns
  dsimp only at heffect
  split at heffect
  · rename_i hsaved
    obtain ⟨-, rfl⟩ := Prod.mk.inj (Except.ok.inj heffect)
    exact ⟨rfl, by rw [hsaved]; rfl⟩
  · cases heffect

/-- The rollback never throws, and there is nothing to roll back when no transaction is open any
more. -/
theorem rollbackBestEffort_run (before : Connection Content) :
    (rollbackBestEffort : Code ε Content Unit).Returns before ()
      (if before.isTransaction then before.ended else before) := by
  rw [Effect.Returns, rollbackBestEffort, Effect.run_tryCatch]
  cases hopen : before.isTransaction with
  | true =>
      have hrollback : (rollback : Code ε Content Unit).Returns before () before.ended := by
        rw [rollback, returns_uninterrupted_iff, hopen]
        rfl
      rw [hrollback]
      rfl
  | false =>
      have hrollback : (rollback : Code ε Content Unit).Throws before .noTransaction before := by
        rw [Effect.Throws, rollback, uninterrupted]
        dsimp only [ExceptT.run_mk, StateT.run]
        rw [hopen]
        rfl
      rw [hrollback]
      rfl

/-- The rollback to a savepoint never throws, and leaves what was open around it open. -/
theorem rollbackSavepointBestEffort_run (before : Connection Content) :
    (rollbackSavepointBestEffort : Code ε Content Unit).Returns before ()
      (match before.saved with
      | inner :: outer :: outermost =>
          { before with content := inner, saved := outer :: outermost }
      | _ => before) := by
  obtain ⟨content, saved, faults⟩ := before
  cases saved with
  | nil => rfl
  | cons inner saved =>
      cases saved with
      | nil => rfl
      | cons outer outermost => rfl

/-- Opening a transaction does not touch the file. -/
theorem Connection.Opened.durable (hopened : before.Opened after) :
    after.durable = before.durable := by
  obtain ⟨hcontent, hsaved⟩ := hopened
  rw [Connection.durable, hsaved, Connection.durable]
  cases hbefore : before.saved with
  | nil => rfl
  | cons inner outer =>
      rw [List.getLast?_cons_cons, List.getLast?_eq_some_getLast (List.cons_ne_nil inner outer)]
      rfl

/-- A transaction that returns has opened, run its body and closed, in this order. -/
theorem transaction_returns {fn : Code ε Content α} (hfn : Neat fn) {value : α}
    (hreturns : (transaction fn).Returns before value after) :
    ∃ opened inner, before.Opened opened ∧ fn.Returns opened value inner ∧
      after.content = inner.content ∧ after.saved = before.saved := by
  rw [Effect.Returns, transaction_run] at hreturns
  by_cases hopen : before.isTransaction = true
  · rw [if_pos hopen] at hreturns
    obtain ⟨opened, inner, hstart, hcode, hfinish⟩ := Effect.returns_bracket_iff.mp hreturns
    have hopened := savepoint_returns hstart
    obtain ⟨hcontent, hsaved⟩ := releaseSavepoint_returns hfinish
    refine ⟨opened, inner, hopened, hcode, hcontent, ?_⟩
    rw [hsaved, hfn.returns hcode, hopened.2]
    rfl
  · rw [if_neg hopen] at hreturns
    obtain ⟨opened, inner, hstart, hcode, hfinish⟩ := Effect.returns_bracket_iff.mp hreturns
    obtain ⟨hcontent, hsaved⟩ := commit_returns hfinish
    have hnil : before.saved = [] := not_not.mp (mt isTransaction_iff.mpr hopen)
    exact ⟨opened, inner, begin_returns hstart, hcode, hcontent, hsaved.trans hnil.symm⟩

/-- What the body or the closing statement leaves when it throws: the open transaction, or a
database that has undone it. -/
theorem kept_or_lost {fn : Code ε Content α} {finish : Code ε Content Unit} (hfn : Neat fn)
    (hfinish : ∀ {inner middle failure}, finish.Throws inner failure middle → inner.Undone middle)
    {opened middle : Connection Content} (hopen : opened.saved ≠ []) {failure : Failure ε}
    (hcause : fn.Throws opened failure middle ∨
      ∃ value inner, fn.Returns opened value inner ∧ finish.Throws inner failure middle) :
    middle.saved = opened.saved ∨ opened.Lost middle := by
  rcases hcause with hthrows | ⟨value, inner, hreturns, hthrows⟩
  · exact hfn.throws hthrows
  · have hinner := hfn.returns hreturns
    rcases hfinish hthrows with ⟨hsaved, -⟩ | ⟨hnil, hcontent⟩
    · exact Or.inl (hsaved.trans hinner)
    · rw [Connection.durable_of_saved hinner hopen] at hcontent
      exact Or.inr ⟨hnil, hcontent⟩

/-- An inner transaction that throws is undone to where it began, by its savepoint; what the
outer one did before it stays. -/
theorem inner_transaction_throws {fn : Code ε Content α} (hfn : Neat fn) {failure : Failure ε}
    (hopen : before.isTransaction = true) (hthrows : (transaction fn).Throws before failure after) :
    before.Undone after := by
  rw [Effect.Throws, transaction_run, if_pos hopen] at hthrows
  have hundo : ∀ state, (rollbackSavepointBestEffort : Code ε Content Unit).Returns state ()
      (Effect.final rollbackSavepointBestEffort state) := fun state =>
    (rollbackSavepointBestEffort_run state).final
  rcases (Effect.throws_bracket_iff hundo).mp hthrows with
    hstart | ⟨opened, middle, hstart, hcause, rfl⟩
  · exact exec_throws hstart
  · have hopened := savepoint_returns hstart
    have hnonempty : opened.saved ≠ [] := by
      rw [hopened.2]
      exact List.cons_ne_nil _ _
    rw [(rollbackSavepointBestEffort_run middle).final_eq]
    rcases kept_or_lost hfn exec_throws hnonempty hcause with hkept | ⟨hnil, hcontent⟩
    · cases hbefore : before.saved with
      | nil => exact absurd hbefore (isTransaction_iff.mp hopen)
      | cons inner outer =>
          rw [hopened.2, hbefore] at hkept
          rw [hkept]
          exact Or.inl ⟨hbefore.symm, rfl⟩
    · rw [hnil]
      exact Or.inr ⟨hnil, hcontent.trans hopened.durable⟩

/-- An outer transaction that throws is undone as a whole, with every inner one that it had
released. -/
theorem outer_transaction_throws {fn : Code ε Content α} (hfn : Neat fn) {failure : Failure ε}
    (hopen : ¬ before.isTransaction = true)
    (hthrows : (transaction fn).Throws before failure after) : before.Undone after := by
  rw [Effect.Throws, transaction_run, if_neg hopen] at hthrows
  have hundo : ∀ state, (rollbackBestEffort : Code ε Content Unit).Returns state ()
      (Effect.final rollbackBestEffort state) := fun state =>
    (rollbackBestEffort_run state).final
  have hbefore : before.saved = [] := not_not.mp (mt isTransaction_iff.mpr hopen)
  rcases (Effect.throws_bracket_iff hundo).mp hthrows with
    hstart | ⟨opened, middle, hstart, hcause, rfl⟩
  · exact exec_throws hstart
  · have hopened := begin_returns hstart
    have hdurable := hopened.durable.trans (Connection.durable_of_nil hbefore)
    have hnonempty : opened.saved ≠ [] := by
      rw [hopened.2]
      exact List.cons_ne_nil _ _
    rw [(rollbackBestEffort_run middle).final_eq]
    rcases kept_or_lost hfn exec_throws hnonempty hcause with hkept | ⟨hnil, hcontent⟩
    · have hstill : middle.isTransaction = true := isTransaction_iff.mpr (hkept ▸ hnonempty)
      rw [if_pos hstill]
      exact Or.inl ⟨hbefore.symm,
        (Connection.durable_of_saved hkept hnonempty).trans hdurable⟩
    · have hended : ¬ middle.isTransaction = true := fun hstill =>
        isTransaction_iff.mp hstill hnil
      rw [if_neg hended]
      exact Or.inl ⟨hnil.trans hbefore.symm, hcontent.trans hdurable⟩

/-- A transaction that throws leaves nothing of what was done in it, whether it was inner or
outer. -/
theorem transaction_throws {fn : Code ε Content α} (hfn : Neat fn) {failure : Failure ε}
    (hthrows : (transaction fn).Throws before failure after) : before.Undone after := by
  by_cases hopen : before.isTransaction = true
  · exact inner_transaction_throws hfn hopen hthrows
  · exact outer_transaction_throws hfn hopen hthrows

/-- A transaction keeps to the transaction around it, so that transactions nest. -/
theorem Neat.transaction {fn : Code ε Content α} (hfn : Neat fn) : Neat (transaction fn) where
  returns hreturns := by
    obtain ⟨_, _, _, _, _, hsaved⟩ := transaction_returns hfn hreturns
    exact hsaved
  throws hthrows := (transaction_throws hfn hthrows).imp_left And.left

/- Atomicity -/

/-- Code made of statements and transactions that swallows no error. Whatever fails inside of it
therefore ends the transaction around it as well, which is what makes the whole atomic. -/
inductive Built : {α : Type} → Code ε Content α → Prop
  | statement {α : Type} (effect : Content → Except ε (α × Content)) : Built (statement effect)
  | pure {α : Type} (value : α) : Built (pure value)
  | throw {α : Type} (failure : Failure ε) : Built (throw failure : Code ε Content α)
  | bind {α β : Type} {first : Code ε Content α} {next : α → Code ε Content β} :
      Built first → (∀ value, Built (next value)) → Built (first >>= next)
  | transaction {α : Type} {fn : Code ε Content α} : Built fn → Built (transaction fn)

/-- Code that is built from statements and transactions keeps to its transaction, by induction
on how it is built. -/
theorem Built.neat {fn : Code ε Content α} (hfn : Built fn) : Neat fn := by
  induction hfn with
  | statement effect => exact neat_statement effect
  | pure value => exact neat_pure value
  | throw failure => exact neat_throw failure
  | bind _ _ ihfirst ihnext => exact ihfirst.bind ihnext
  | transaction _ ih => exact ih.transaction

/-- What code does to the tables when all its statements succeed: each in its turn, with the
transactions left out. -/
inductive Does : {α : Type} → Code ε Content α → Content → α → Content → Prop
  | statement {α : Type} {effect : Content → Except ε (α × Content)} {before after : Content}
      {value : α} : effect before = .ok (value, after) →
        Does (statement effect) before value after
  | pure {α : Type} (value : α) (content : Content) : Does (pure value) content value content
  | bind {α β : Type} {first : Code ε Content α} {next : α → Code ε Content β}
      {before middle after : Content} {value : α} {result : β} :
      Does first before value middle → Does (next value) middle result after →
        Does (first >>= next) before result after
  | transaction {α : Type} {fn : Code ε Content α} {before after : Content} {value : α} :
      Does fn before value after → Does (transaction fn) before value after

/-- When such code returns, the contents are what its statements, taken together, make of them. -/
theorem Built.does {fn : Code ε Content α} (hfn : Built fn) {before after : Connection Content}
    {value : α} (hreturns : fn.Returns before value after) :
    Does fn before.content value after.content := by
  induction hfn generalizing before after with
  | statement effect => exact .statement (statement_returns hreturns).1
  | pure found =>
      obtain ⟨rfl, rfl⟩ := Effect.returns_pure_iff.mp hreturns
      exact .pure found before.content
  | throw failure => exact absurd hreturns Effect.not_returns_throw
  | bind _ _ ihfirst ihnext =>
      obtain ⟨found, middle, hfirst, hnext⟩ := Effect.returns_bind_iff.mp hreturns
      exact .bind (ihfirst hfirst) (ihnext found hnext)
  | transaction hbody ih =>
      obtain ⟨opened, inner, hopened, hbodyReturns, hcontent, -⟩ :=
        transaction_returns hbody.neat hreturns
      have hdoes := ih hbodyReturns
      rw [hopened.1, ← hcontent] at hdoes
      exact .transaction hdoes

/-- All or nothing, at any depth: a transaction that returns has done every statement of its
body and leaves the transactions around it open as they were; one that throws has done none,
unless SQLite has given up the whole of the outermost one. -/
theorem transaction_atomic {fn : Code ε Content α} (hfn : Built fn)
    (before : Connection Content) :
    (∀ value after, (transaction fn).Returns before value after →
      after.saved = before.saved ∧ Does fn before.content value after.content) ∧
    ∀ failure after, (transaction fn).Throws before failure after →
      (after.saved = before.saved ∧ after.content = before.content) ∨
        (after.saved = [] ∧ after.content = before.durable) := by
  constructor
  · intro value after hreturns
    obtain ⟨opened, inner, hopened, hbody, hcontent, hsaved⟩ :=
      transaction_returns hfn.neat hreturns
    have hdoes := hfn.does hbody
    rw [hopened.1, ← hcontent] at hdoes
    exact ⟨hsaved, hdoes⟩
  · intro failure after hthrows
    exact transaction_throws hfn.neat hthrows

def push (number : Nat) (numbers : List Nat) : Except Unit (Unit × List Nat) :=
  .ok ((), number :: numbers)

/-- Two writes, the second in a transaction of its own. -/
def pushes : Code Unit (List Nat) Unit := do
  statement (push 1)
  transaction (statement (push 2))

/-- An outer transaction with an inner one in it, both of which return. -/
theorem transaction_atomic_pushes : ∃ after, (transaction pushes).Returns ⟨[], [], []⟩ () after ∧
    after.content = [2, 1] ∧ Does pushes [] () after.content := by
  have hbuilt : Built pushes := .bind (.statement _) fun _ => .transaction (.statement _)
  have hreturns : (transaction pushes).Returns ⟨[], [], []⟩ () ⟨[2, 1], [], []⟩ := rfl
  exact ⟨_, hreturns, rfl, ((transaction_atomic hbuilt ⟨[], [], []⟩).1 () _ hreturns).2⟩

end Database

end MailPanel
