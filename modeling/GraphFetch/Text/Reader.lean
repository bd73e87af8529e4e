/-
Choice and repetition for readers.

A reader takes a value from the front of what is left to read, or fails and takes
nothing.  Alternatives are therefore tried on the same text, and a repetition ends
where its reader fails.  Nothing here knows what is being read: a state that holds
the rest of the text, and a bound on how often a reader can succeed on it, is all.
-/

namespace GraphFetch

namespace Text

variable {σ α : Type}

/-- What a reader takes, or nothing. -/
def maybe (reader : StateT σ Option α) : StateT σ Option (Option α) := fun input =>
  match reader input with
  | some (value, rest) => some (some value, rest)
  | none => some (none, input)

/-- Succeeds where a reader fails, and takes nothing. -/
def absent (reader : StateT σ Option α) : StateT σ Option Unit := fun input =>
  match reader input with
  | some _ => none
  | none => some ((), input)

/-- Repeats a reader until it fails, a given number of times at most. -/
def upTo (reader : StateT σ Option α) : Nat → σ → List α × σ
  | 0, input => ([], input)
  | bound + 1, input =>
    match reader input with
    | some (value, rest) =>
      let (values, rest) := upTo reader bound rest
      (value :: values, rest)
    | none => ([], input)

/-- The text after a given beginning. -/
def afterMark? : List Char → List Char → Option (List Char)
  | [], text => some text
  | m :: mark, c :: text => if m = c then afterMark? mark text else none
  | _ :: _, [] => none

end Text

end GraphFetch
