import MappedStore.Session.Step

/-!
# Transcripts

A transcript of a session lists the answer to each request with the log records that were emitted
on the way, and the records of the clean-up at its end: transactions that have not ended are
dropped, nested ones first, and then the environments. The switch for courtesy checks is reported
once, when a process consults it for the first time and finds the checks off.
-/

namespace MappedStore.Session

/-- The log records of some events. `silent` says whether the switch needs no report any more. -/
def recordsOf (silent : Bool) : List Event → List Log.Record × Bool
  | [] => ([], silent)
  | .log record :: rest =>
      let (records, silent) := recordsOf silent rest
      (record :: records, silent)
  | .consulted :: rest =>
      let (records, after) := recordsOf true rest
      (if silent then records else .checksDisabled :: records, after)
  | .call .. :: rest => recordsOf silent rest

/-- The records that a log keeps. -/
def kept (threshold : Log.Level) (records : List Log.Record) : List Log.Record :=
  records.filter (·.level.isKeptAt threshold)

/-- An answer with the records of its step. -/
structure Entry where
  result : Except Failure Reply
  records : List Log.Record

/-- Answer requests in turn. -/
def answers (session : Session) (silent : Bool) : List Request → List Entry × Bool × Session
  | [] => ([], silent, session)
  | request :: rest =>
      let step := session.step request
      let (records, silent) := recordsOf silent step.events
      let (entries, silent, session) := answers step.session silent rest
      (⟨step.result, records⟩ :: entries, silent, session)

/-- Whether a transaction has not ended and no other unfinished one is nested in it. -/
def isInnermost (session : Session) (txn : TxnId) : Bool :=
  !(session.system.transaction txn).state.isFinished
    && !session.transactions.any fun entry ↦
      !(session.system.transaction entry.2).state.isFinished
        && (session.system.transaction entry.2).parent = some txn

/-- Drop the transactions that have not ended, at most `fuel` of them: each time the first by name
in which no other is nested. -/
def dropTransactions : Nat → Session → List Event × Session
  | 0, session => ([], session)
  | fuel + 1, session =>
      match session.transactions.sorted.find? fun entry ↦ session.isInnermost entry.2 with
      | none => ([], session)
      | some (name, txn) =>
          let outcome := session.system.dropTransaction txn
          let (events, session) :=
            dropTransactions fuel
              { session with
                system := outcome.state
                transactions := session.transactions.free name }
          (outcome.events ++ events, session)

/-- Drop environments in turn. -/
def dropEnvironments (system : System) : List EnvId → List Event
  | [] => []
  | env :: rest =>
      let outcome := system.dropEnvironment env
      outcome.events ++ dropEnvironments outcome.state rest

/-- The events of the clean-up at the end of a session. -/
def cleanUp (session : Session) : List Event :=
  let (events, session) := dropTransactions session.transactions.length session
  events ++ dropEnvironments session.system (session.environments.sorted.map (·.2))

/-- The answers to the requests of a session, and the records of its clean-up. -/
def transcript (session : Session) (requests : List Request) : List Entry × List Log.Record :=
  let (entries, silent, session) := session.answers session.system.checks requests
  (entries, (recordsOf silent session.cleanUp).1)

end MappedStore.Session
