import SharedValues.Script.Run
import SharedValues.Text.Character

/-!
# Scenarios

A scenario is a named program together with the lines that it has to print. There are two reference
scenarios, which run scripts: one on the written form of values, one on the behaviour of lists and of
loops with an else clause.
-/

namespace SharedValues

/-- A program prints on a console and may end with a fault. -/
abbrev Program := Console → Except Fault Unit × Console

/-- A named program, and the lines that it has to print. -/
structure Scenario where
  name : String
  expected : List String
  script : Program

namespace Scenario

/-- Runs the program: all lines of the console after it, or the fault that ended it. -/
def run (s : Scenario) (console : Console) : Except Fault (List String) × Console :=
  match s.script console with
  | (.ok (), console) => (.ok console.transcript, console)
  | (.error fault, console) => (.error fault, console)

/-- A scenario as a message shows it: its name and the number of expected lines. -/
def describe (s : Scenario) : String :=
  "Scenario \x7b name: " ++ Text.quotedLine s.name ++ ", expected: " ++
    s.expected.length.repr ++ " \x7d"

/-! ### The reference scenarios -/

open Script

/-- More draws than a loop of a reference script makes. -/
def referenceDraws : Nat := 100

/-- Prints a label and the written form of a value on one line. -/
def showStep (label : String) (value : Expr) : List Step :=
  [.act (.compute (.repr value) (some "shown")),
    .act (.compute (.add (.text label) (.var "shown")) (some "line")),
    .act (.print [.var "line"])]

/-- Prints the length of a list between two texts. -/
def countStep (before : String) (list : Expr) (after : String) : List Step :=
  [.act (.compute (.length list) (some "count")),
    .act (.compute (.repr (.var "count")) (some "count")),
    .act (.compute (.add (.text before) (.var "count")) (some "line")),
    .act (.compute (.add (.var "line") (.text after)) (some "line")),
    .act (.print [.var "line"])]

/-- Prints a text. -/
def sayStep (s : String) : Step := .act (.print [.text s])

def reprExpected : List String :=
  ["repr tests...",
    "repr(None) -> None",
    "repr(True) -> True",
    "repr(not True) -> False",
    "repr(5) -> 5",
    "repr(5 + 11) -> 16",
    "repr(b'omg') -> b'omg'",
    "repr(b'omg' + b'hax') -> b'omghax'",
    "repr('omg') -> 'omg'",
    "repr('omg' + 'hax') -> 'omghax'"]

def reprSteps : List Step :=
  let omg : Expr := .bytes [111, 109, 103]
  let hax : Expr := .bytes [104, 97, 120]
  [sayStep "repr tests..."] ++
    showStep "repr(None) -> " .none ++
    showStep "repr(True) -> " (.bool true) ++
    [.act (.compute (.not (.bool true)) (some "value"))] ++
    showStep "repr(not True) -> " (.var "value") ++
    showStep "repr(5) -> " (.int 5) ++
    [.act (.compute (.add (.int 5) (.int 11)) (some "value"))] ++
    showStep "repr(5 + 11) -> " (.var "value") ++
    showStep "repr(b'omg') -> " omg ++
    [.act (.compute (.add omg hax) (some "value"))] ++
    showStep "repr(b'omg' + b'hax') -> " (.var "value") ++
    showStep "repr('omg') -> " (.text "omg") ++
    [.act (.compute (.add (.text "omg") (.text "hax")) (some "value"))] ++
    showStep "repr('omg' + 'hax') -> " (.var "value")

/-- The written form of every kind of value but lists. -/
def repr : Scenario := ⟨"repr", reprExpected, Script.program referenceDraws reprSteps⟩

def listsExpected : List String :=
  ["a has 4 items", "1", "2", "3", "4", "done", "a[2] is 3", "a[5] does not exist",
    "b has 3 items", "a", "b", "c", "done", "b was cleared; now it has 0 items", "done"]

def listsSteps : List Step :=
  let a : Expr := .var "a"
  let b : Expr := .var "b"
  [.act (.assign (.list [.int 1, .int 2, .int 3, .int 4]) "a")] ++
    countStep "a has " a " items" ++
    [.forElse (.live a) "x"
      [.act (.compute (.repr (.var "x")) (some "shown")), .act (.print [.var "shown"])]
      [sayStep "done"],
      .act (.method a (.get (.int 2)) (some "item"))] ++
    showStep "a[2] is " (.var "item") ++
    [.attempt
      ([.act (.method a (.get (.int 5)) (some "item"))] ++ showStep "a[5] is " (.var "item"))
      .index [sayStep "a[5] does not exist"],
      .act (.assign (.list [.text "a", .text "b", .text "c"]) "b")] ++
    countStep "b has " b " items" ++
    [.forElse (.live b) "y" [.act (.print [.var "y"])] [sayStep "done"],
      .act (.method b .clear none)] ++
    countStep "b was cleared; now it has " b " items" ++
    [.forElse (.live b) "y" [.act (.print [.var "y"])] [sayStep "done"]]

/-- Length, access, clearing and loops with an else clause. -/
def lists : Scenario := ⟨"lists", listsExpected, Script.program referenceDraws listsSteps⟩

/-- The reference scenarios in order. -/
def reference : List Scenario := [repr, lists]

end Scenario

end SharedValues
