/-
Runs against a data source.

A run has the statements it issued, in order, and either a result or the error that
ended it.  The statements before an error have been issued all the same.
-/
import GraphFetch.Schema.Entity

namespace GraphFetch

/-- The statements of a run and how it ended. -/
structure Run (α : Type) where
  statements : List String
  result : Except ExecutorError α

namespace Run

variable {α β : Type}

/-- The run that issues nothing. -/
def done (value : α) : Run α := ⟨[], .ok value⟩

/-- The run that fails at once. -/
def fail (error : ExecutorError) : Run α := ⟨[], .error error⟩

/-- The run that issues one statement. -/
def issue (statement : String) : Run Unit := ⟨[statement], .ok ()⟩

/-- Goes on with the result of a run, unless it failed. -/
def andThen (run : Run α) (next : α → Run β) : Run β :=
  match run.result with
  | .ok value => ⟨run.statements ++ (next value).statements, (next value).result⟩
  | .error error => ⟨run.statements, .error error⟩

instance : Monad Run where
  pure := done
  bind := andThen

end Run

/-- Answers a query with rows that carry the relations of its eager load. -/
abbrev Executor := Query → Run (List Row)

end GraphFetch
