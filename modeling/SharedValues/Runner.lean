import SharedValues.CommandLine
import SharedValues.Harness
import SharedValues.Report.Document
import SharedValues.Report.Summary

/-!
# The runner

What a run of the command does, as a plan: the text that it prints, the file that it then writes,
and the code with which it ends. If the file cannot be written, the code is one.

The file is written in a directory without subdirectories. A path reaches a file in it only if it is
the name of the file, possibly after steps that stay in the directory.
-/

namespace SharedValues

/-- The files of a directory, by name. -/
structure Directory where
  files : List (String × String)
deriving DecidableEq, Repr

namespace Directory

/-- The directory without files. -/
def empty : Directory := ⟨[]⟩

/-- The name of the file that a path reaches. -/
def fileName? (path : String) : Option String :=
  match (path.splitOn "/").dropWhile (· == ".") with
  | [name] => if name == "" || name == "." || name == ".." then none else some name
  | _ => none

/-- Writes a file, if the path reaches one. -/
def write? (d : Directory) (path content : String) : Option Directory :=
  match fileName? path with
  | some name => some ⟨d.files.filter (fun file => file.1 != name) ++ [(name, content)]⟩
  | none => none

/-- The content of a file. -/
def content? (d : Directory) (name : String) : Option String := d.files.lookup name

end Directory

namespace Runner

open CommandLine

/-- The name and the version of the command. -/
def versionLine : String := "conformance-runner 0.1.0\n"

/-- How the command is used. -/
def helpText : String :=
  "Runs the reference scripts and checks their printed output\n\n" ++
    "Usage: conformance-runner [OPTIONS]\n\n" ++
    "Options:\n" ++
    "      --suite <SUITE>  Scenarios to run [default: all] " ++
    "[possible values: all, repr, lists]\n" ++
    "      --json <PATH>    Write the report as JSON to this path\n" ++
    "  -q, --quiet          Do not echo scenario output\n" ++
    "  -v, --verbose        Log at debug level unless RUST_LOG says otherwise\n" ++
    "  -h, --help           Print help\n" ++
    "  -V, --version        Print version\n"

/-- What a run of the command does. -/
structure Plan where
  output : String
  /-- The path and the content of the file to write. -/
  file : Option (String × String)
  code : UInt32
deriving DecidableEq, Repr

/-- The code of a run whose file could not be written. -/
def unwritten : UInt32 := 1

/-- The plan of a run that reads no further than its arguments. -/
def stopPlan : Stop → Plan
  | .help => ⟨helpText, none, 0⟩
  | .version => ⟨versionLine, none, 0⟩
  | _ => ⟨"", none, 2⟩

/-- The plan of a run with these options. -/
def optionsPlan (o : Options) : Plan :=
  match (Harness.start (!o.quiet)).runAll o.suite.scenarios with
  | (.ok report, harness) =>
    let echo := String.join (harness.echoed.map (· ++ "\n"))
    ⟨echo ++ report.detailedSummary ++ "\n", o.json.map fun path => (path, report.toJson),
      if report.isSuccess then 0 else 1⟩
  | (.error overflow, _) => ⟨overflow.message, none, 101⟩

/-- The plan of a run with these arguments. -/
def plan (arguments : List String) : Plan :=
  match CommandLine.read arguments with
  | .ok options => optionsPlan options
  | .error stop => stopPlan stop

/-- Carries a plan out in a directory: the directory after it, and the code. -/
def carryOut (p : Plan) (d : Directory) : Directory × UInt32 :=
  match p.file with
  | none => (d, p.code)
  | some (path, content) =>
    match d.write? path content with
    | some d => (d, p.code)
    | none => (d, unwritten)

end Runner

end SharedValues
