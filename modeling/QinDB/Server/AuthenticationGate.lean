/-
# Server.AuthenticationGate — whose statements are executed

Messages arrive on any number of connections, in any order. The server keeps no record of the
session numbers that it has issued: it has one counter for all connections, and each connection
keeps the last number that it was given. `Ledger` is that record, kept beside the server.

* `handleMessage_session`: a message either gives its connection the next session number, or
  leaves the counter and the connection's number as they are.
* `InStep.receive`: one message keeps the ledger in step with the server.
* `statements_authenticated`: a statement is executed, and a database switched, only on a
  connection that was authenticated, with the number that it was given last; and no number is
  issued twice.
-/
import QinDB.Server.Sessions

namespace QinDB.Server

open QinDB.Base QinDB.Storage QinDB.Executor QinDB.Auth

set_option autoImplicit false

section Gate

variable {V E ι : Type} {qt : Variant V} (fields : Fields qt) (ev : Evaluator V E)
  (view : Presentation V E) (services : Services V E)
  (verifyPassword : Identifier → Identifier → Bool)

/-! ## Session numbers -/

/-- The session number that an authentication was answered with. -/
def issued : Message E → Response V → Option UInt64
  | .authRequest _, .auth sessionId _ => sessionId
  | _, _ => none

/-- The session number of a connection that is authenticated. -/
def Session.number (session : Session) : Option UInt64 :=
  if session.isAuthenticated then some session.sessionId else none

/-- The session numbers that were issued, with their connections, oldest first. -/
abbrev Ledger (ι : Type) := List (ι × UInt64)

variable [DecidableEq ι]

/-- The number that a connection was given last. -/
def Ledger.latest (ledger : Ledger ι) (i : ι) : Option UInt64 :=
  (ledger.filter fun entry => entry.1 = i).getLast?.map (·.2)

/-- A message of one of the connections, and what it adds to the ledger. -/
def serve (s : ServerState V ι × Ledger ι) (arrival : ι × Message E) :
    Response V × ServerState V ι × Ledger ι :=
  let done := s.1.receive fields ev view services verifyPassword arrival.1 arrival.2
  (done.1, done.2, s.2 ++ ((issued arrival.2 done.1).map fun sessionId =>
    (arrival.1, sessionId)).toList)

/-- A server that has just been started: no connection is authenticated. -/
def ServerState.started (dbManager : DatabaseManager V) : ServerState V ι where
  dbManager := dbManager
  nextSessionId := 1
  sessions := fun _ =>
    { sessionId := 0, isAuthenticated := false, currentDatabase := [], username := [] }

/-! ## One message -/

/-- What a message does to the session number of its connection. -/
theorem handleMessage_session (c : ClientConnection V) (message : Message E) :
    let done := c.handleMessage fields ev view services verifyPassword message
    (issued message done.1 = some c.nextSessionId ∧ done.2.nextSessionId = c.nextSessionId + 1 ∧
      done.2.session.number = some c.nextSessionId) ∨
    (issued message done.1 = none ∧ done.2.nextSessionId = c.nextSessionId ∧
      done.2.session.number = c.session.number) := by
  cases message with
  | authRequest request =>
    simp only [ClientConnection.handleMessage, ClientConnection.handleAuthRequest]
    split
    · exact .inr ⟨rfl, rfl, rfl⟩
    · split
      · exact .inr ⟨rfl, rfl, rfl⟩
      · split
        · exact .inl ⟨rfl, rfl, rfl⟩
        · exact .inr ⟨rfl, rfl, rfl⟩
  | queryRequest request =>
    refine .inr ⟨rfl, ?_⟩
    simp only [ClientConnection.handleMessage, ClientConnection.handleQueryRequest]
    split
    · exact ⟨rfl, rfl⟩
    · split
      · exact ⟨rfl, rfl⟩
      · split
        · exact ⟨rfl, rfl⟩
        · split
          · exact ⟨rfl, rfl⟩
          · exact ⟨rfl, rfl⟩
          · rw [ClientConnection.runStatement]
            split <;> exact ⟨rfl, rfl⟩
  | databaseSwitch name =>
    refine .inr ⟨rfl, ?_⟩
    simp only [ClientConnection.handleMessage, ClientConnection.handleDatabaseSwitch]
    split
    · exact ⟨rfl, rfl⟩
    · split
      · exact ⟨rfl, rfl⟩
      · split <;> exact ⟨rfl, rfl⟩
  | _ => exact .inr ⟨rfl, rfl, rfl⟩

/-- Nothing that a connection asks for before it is authenticated has an effect. -/
theorem databaseSwitch_refused {c : ClientConnection V} (refused : c.isAuthenticated = false)
    (name : Option Identifier) : (c.handleDatabaseSwitch name).2 = c := by
  simp only [ClientConnection.handleDatabaseSwitch, refused, Bool.not_false, if_true]

theorem execution_authenticated {c : ClientConnection V} {message : Message E}
    {run : Execution V E} (executed : c.execution message = some run) :
    ∃ request, message = .queryRequest (some request) ∧
      c.session.number = some request.sessionId := by
  cases message with
  | queryRequest request =>
    cases request with
    | none => cases executed
    | some request =>
      rw [ClientConnection.execution] at executed
      split at executed
      · rename_i accepted
        rw [Bool.and_eq_true, decide_eq_true_eq] at accepted
        exact ⟨request, rfl, by rw [accepted.2]; exact if_pos accepted.1⟩
      · cases executed
  | _ => cases executed

/-! ## The ledger -/

theorem Ledger.latest_append_self (ledger : Ledger ι) (i : ι) (sessionId : UInt64) :
    Ledger.latest (ledger ++ [(i, sessionId)]) i = some sessionId := by
  rw [latest, List.filter_append, List.filter_cons_of_pos (by simp), List.filter_nil,
    List.getLast?_concat, Option.map_some]

theorem Ledger.latest_append_other (ledger : Ledger ι) {i j : ι} (other : i ≠ j)
    (sessionId : UInt64) :
    Ledger.latest (ledger ++ [(i, sessionId)]) j = ledger.latest j := by
  rw [latest, List.filter_append, List.filter_cons_of_neg (by simpa using other), List.filter_nil,
    List.append_nil, ← latest]

/-- The server and the ledger agree: the numbers were counted, and every connection that was given
one keeps the last. -/
structure InStep (s : ServerState V ι × Ledger ι) : Prop where
  next : s.1.nextSessionId = .ofNat (s.2.length + 1)
  counted : s.2.map (·.2) = (List.range s.2.length).map fun n => .ofNat (n + 1)
  kept : ∀ i, s.2.latest i = (s.1.sessions i).number

theorem inStep_started (dbManager : DatabaseManager V) :
    InStep (ServerState.started dbManager, ([] : Ledger ι)) where
  next := rfl
  counted := rfl
  kept _ := rfl

variable {fields ev view services verifyPassword} {s : ServerState V ι × Ledger ι}

theorem InStep.receive (agreed : InStep s) (arrival : ι × Message E) :
    InStep (serve fields ev view services verifyPassword s arrival).2 := by
  obtain ⟨i, message⟩ := arrival
  obtain ⟨server, ledger⟩ := s
  obtain ⟨next, counted, kept⟩ := agreed
  have done := handleMessage_session fields ev view services verifyPassword (server.connection i)
    message
  rcases done with ⟨number, counter, given⟩ | ⟨number, counter, given⟩
  · -- the connection is given the next number
    have entries : (serve fields ev view services verifyPassword (server, ledger) (i, message)).2.2 =
        ledger ++ [(i, server.nextSessionId)] := by
      simp only [serve, ServerState.receive, number, Option.map_some, Option.toList_some]
      rfl
    refine ⟨?_, ?_, fun j => ?_⟩
    · refine counter.trans ?_
      rw [entries, List.length_append, List.length_singleton, UInt64.ofNat_add _ 1]
      exact congrArg (· + 1) next
    · rw [entries, List.map_append, counted, List.length_append, List.length_singleton,
        List.range_succ, List.map_append, List.map_singleton, List.map_singleton]
      exact congrArg (fun last => _ ++ [last]) next
    · rw [entries]
      by_cases here : i = j
      · subst here
        rw [Ledger.latest_append_self]
        show _ = (Function.update server.sessions i _ i).number
        rw [Function.update_self]
        exact given.symm
      · rw [Ledger.latest_append_other _ here]
        show _ = (Function.update server.sessions i _ j).number
        rw [Function.update_of_ne (Ne.symm here)]
        exact kept j
  · have entries : (serve fields ev view services verifyPassword (server, ledger) (i, message)).2.2 =
        ledger := by
      simp only [serve, ServerState.receive, number, Option.map_none, Option.toList_none,
        List.append_nil]
    refine ⟨?_, ?_, fun j => ?_⟩
    · rw [entries]
      exact counter.trans next
    · rw [entries]
      exact counted
    · rw [entries]
      show _ = (Function.update server.sessions i _ j).number
      by_cases here : j = i
      · subst here
        rw [Function.update_self]
        exact (kept j).trans given.symm
      · rw [Function.update_of_ne here]
        exact kept j

/-- No number is issued twice, as long as the counter has not gone round. -/
theorem InStep.nodup (agreed : InStep s) (few : s.2.length < 2 ^ 64) : (s.2.map (·.2)).Nodup := by
  rw [agreed.counted]
  refine List.Nodup.map_on (fun m below n below' same => ?_) List.nodup_range
  have numbers := congrArg UInt64.toNat same
  rw [List.mem_range] at below below'
  rw [UInt64.toNat_ofNat', UInt64.toNat_ofNat'] at numbers
  omega

variable (fields ev view services verifyPassword)

/-- After any messages on any connections, one more is executed or switches a database only if its
connection was authenticated, and with the session number that it was given last. -/
theorem statements_authenticated (dbManager : DatabaseManager V) (past : List (ι × Message E))
    (i : ι) (message : Message E) :
    let s := (Run.specRun (serve fields ev view services verifyPassword)
      (ServerState.started dbManager, []) past).2
    let done := s.1.receive fields ev view services verifyPassword i message
    (∀ run ∈ (s.1.connection i).execution message, ∃ request,
        message = .queryRequest (some request) ∧ s.2.latest i = some request.sessionId) ∧
      ((s.1.connection i).execution message = none →
        done.2.dbManager.databases = s.1.dbManager.databases) ∧
      (s.2.length < 2 ^ 64 → (s.2.map (·.2)).Nodup) ∧
      ∀ name, message = .databaseSwitch name → s.2.latest i = none → done.2 = s.1 := by
  intro s done
  have agreed : InStep s := Run.specRun_keeps (fun _ arrival agreed => agreed.receive arrival) past _
    (inStep_started dbManager)
  refine ⟨fun run found => ?_, fun idle => ?_, agreed.nodup, fun name same unknown => ?_⟩
  · obtain ⟨request, same, number⟩ := execution_authenticated found
    exact ⟨request, same, (agreed.kept i).trans number⟩
  · have cases := ClientConnection.handleMessage_cases fields ev view services verifyPassword
      (s.1.connection i) message
    rcases cases with ⟨-, same, -⟩ | ⟨run, _, found, -⟩
    · exact same
    · cases idle.symm.trans found
  · subst same
    have refused : (s.1.connection i).isAuthenticated = false := by
      rw [agreed.kept, Session.number] at unknown
      split at unknown
      · cases unknown
      · rename_i absent
        exact Bool.eq_false_iff.mpr absent
    have stays := databaseSwitch_refused refused name
    show ServerState.mk _ _ _ = s.1
    simp only [ClientConnection.handleMessage, stays]
    rw [ServerState.mk.injEq]
    exact ⟨rfl, rfl, Function.update_eq_self i _⟩

end Gate

end QinDB.Server
