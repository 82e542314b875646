import SeriesQuery.Error.Compile
import SeriesQuery.Error.Eval

/-!
# Query errors

How a query ends without its rows: it is refused before it runs, a row cannot be computed, its
caller cancelled it, or an instant left the calendar.
-/

namespace SeriesQuery

inductive QueryError where
  | compile (error : CompileError)
  | eval (error : EvalError)
  | cancelled
  /-- A period led to an instant outside of the calendar. -/
  | outOfCalendar

namespace QueryError

def message : QueryError → String
  | .compile error => "Compile error: " ++ error.message
  | .eval error => "Evaluation error: " ++ error.message
  | .cancelled => "Query cancelled"
  | .outOfCalendar => "Instant outside of the calendar"

/-- The same error of a stage; a cancellation has no stage. -/
def ofStage (stage : String) : QueryError → QueryError
  | .compile error => .compile (.context stage error)
  | .eval error => .eval (.context stage error)
  | .cancelled => .cancelled
  | .outOfCalendar => .outOfCalendar

def within {α : Type} (stage : String) : Except QueryError α → Except QueryError α
  | .ok a => .ok a
  | .error e => .error (e.ofStage stage)

def compiling {α : Type} : Except CompileError α → Except QueryError α
  | .ok a => .ok a
  | .error e => .error (.compile e)

def evaluating {α : Type} : Except EvalError α → Except QueryError α
  | .ok a => .ok a
  | .error e => .error (.eval e)

end QueryError

inductive StorageError where
  | seriesExists (name : String)
  | seriesNotFound (name : String)
  | invalidSample (series : String) (cause : EvalError)

def StorageError.message : StorageError → String
  | .seriesExists name => "Series '" ++ name ++ "' already exists"
  | .seriesNotFound name => "Series '" ++ name ++ "' not found"
  | .invalidSample series cause =>
    "Invalid sample for series '" ++ series ++ "': " ++ cause.message

end SeriesQuery
