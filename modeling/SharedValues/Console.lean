import SharedValues.Value.Render

/-!
# The console

A console keeps every printed line. It may also pass each line on, in order, as soon as it is
printed.
-/

namespace SharedValues

/-- The printed lines, and those of them that were passed on. -/
structure Console where
  /-- Whether lines are passed on. -/
  forwards : Bool
  /-- All printed lines. -/
  transcript : List String
  /-- The lines that were passed on. -/
  forwarded : List String
deriving DecidableEq, Repr

namespace Console

/-- A console that only keeps lines. -/
def silent : Console := ⟨false, [], []⟩

/-- A console that also passes lines on. -/
def forwarding : Console := ⟨true, [], []⟩

/-- Prints a line. -/
def writeLine (c : Console) (line : String) : Console :=
  { c with
    transcript := c.transcript ++ [line]
    forwarded := if c.forwards then c.forwarded ++ [line] else c.forwarded }

/-- The line on which values are printed: their texts, a space apart. -/
def line (h : Store) (vs : List Value) : String := " ".intercalate (vs.map (Value.display h))

/-- Prints values on one line. -/
def print (c : Console) (h : Store) (vs : List Value) : Console := c.writeLine (line h vs)

@[simp] theorem transcript_writeLine (c : Console) (l : String) :
    (c.writeLine l).transcript = c.transcript ++ [l] := rfl

@[simp] theorem transcript_print (c : Console) (h : Store) (vs : List Value) :
    (c.print h vs).transcript = c.transcript ++ [line h vs] := rfl

end Console

end SharedValues
