/-!
# Faults of JSON texts

The ways in which reading a value out of a JSON text can fail.
-/

namespace FileIndexing.Json

/-- Why reading a text as JSON stopped. -/
inductive Fault where
  /-- The text is not JSON. -/
  | malformed
  /-- The text is JSON as far as it was read, but not of the wanted form. -/
  | mismatched
  /-- The text ends inside a value. -/
  | truncated
  deriving DecidableEq, Repr

/-- The fault as shown to people. -/
def Fault.text : Fault → String
  | .malformed => "malformed text"
  | .mismatched => "value of another form"
  | .truncated => "unexpected end of text"

end FileIndexing.Json
