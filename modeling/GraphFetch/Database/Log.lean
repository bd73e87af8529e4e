/-
The log of a database.

A database counts the statements it has run since it was opened and keeps the texts of
those since it was last cleared.  What a run issued is logged however the run ended;
clearing empties the log and leaves the count alone.
-/
import GraphFetch.Database.Load

namespace GraphFetch

/-- The statements of a database: how many it has run, and those since it was last cleared. -/
structure StatementLog where
  executed : Nat
  statements : List String
deriving DecidableEq, Inhabited

namespace StatementLog

/-- The log of a database that was just opened. -/
def empty : StatementLog := ⟨0, []⟩

/-- Logs what a run issued, however it ended. -/
def record {α : Type} (log : StatementLog) (run : Run α) : StatementLog :=
  ⟨log.executed + run.statements.length, log.statements ++ run.statements⟩

/-- Forgets the statements, but not how many there were. -/
def clear (log : StatementLog) : StatementLog := { log with statements := [] }

end StatementLog

namespace Database

/-- Answers a query and logs the statements that it took. -/
def executeLogged (database : Database) (query : Query) :
    StateM StatementLog (Except ExecutorError (List Row)) := fun log =>
  let run := database.execute query
  (run.result, log.record run)

end Database

end GraphFetch
