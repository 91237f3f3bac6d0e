/-!
# Faults

What can go wrong when an operation is applied to values. A fault keeps its cause; `message` is the
only place that words it.
-/

namespace SharedValues

/-- The two families of faults that a script can tell apart when it catches one. -/
inductive FaultKind where
  | index
  | type
deriving DecidableEq, Repr

/-- The name of a family of faults. -/
def FaultKind.name : FaultKind → String
  | .index => "IndexError"
  | .type => "TypeError"

/-- The cause of a failed operation. -/
inductive Fault where
  /-- An index does not name an element of a container of this length. -/
  | indexOutOfRange (container : String) (index : Int) (length : Nat)
  /-- An element was asked of a container that has none. -/
  | emptyContainer (container : String)
  /-- An operation is not defined between values of these two kinds. -/
  | typeMismatch (operation left right : String)
  /-- An operation was applied to a value of the wrong kind. -/
  | wrongReceiver (operation expected found : String)
deriving DecidableEq, Repr

namespace Fault

/-- The family of a fault. -/
def kind : Fault → FaultKind
  | .indexOutOfRange .. => .index
  | .emptyContainer .. => .index
  | .typeMismatch .. => .type
  | .wrongReceiver .. => .type

/-- The text of a fault. The offending index and the length are not part of it. -/
def message : Fault → String
  | .indexOutOfRange container _ _ => container ++ " index out of range"
  | .emptyContainer container => "pop from empty " ++ container
  | .typeMismatch operation left right =>
    "unsupported operand type(s) for " ++ operation ++ ": '" ++ left ++ "' and '" ++ right ++ "'"
  | .wrongReceiver operation expected found =>
    "'" ++ operation ++ "' requires a '" ++ expected ++ "' object but received a '" ++ found ++ "'"

/-- The text of a fault after the name of its family. -/
def report (fault : Fault) : String := fault.kind.name ++ ": " ++ fault.message

end Fault

end SharedValues
