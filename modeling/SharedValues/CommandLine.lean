import SharedValues.Scenario

/-!
# The command line

The arguments of the command are read from left to right. An option that takes a value has it after
an equals sign or in the next argument. A value in an argument of its own is looked at only when the
next known option is met, or at the end: until then an unknown argument is noticed first.
-/

namespace SharedValues.CommandLine

/-- A choice of reference scenarios. -/
inductive Suite where
  | all
  | repr
  | lists
deriving DecidableEq, Repr

/-- The scenarios of a suite. -/
def Suite.scenarios : Suite → List Scenario
  | .all => Scenario.reference
  | .repr => [Scenario.repr]
  | .lists => [Scenario.lists]

/-- The suite with a name. -/
def Suite.ofName? : String → Option Suite
  | "all" => some .all
  | "repr" => some .repr
  | "lists" => some .lists
  | _ => none

/-- What the arguments ask for. -/
structure Options where
  suite : Suite
  /-- Where to write the report. -/
  json : Option String
  quiet : Bool
  verbose : Bool
deriving DecidableEq, Repr

/-- Why reading the arguments ends without options. -/
inductive Stop where
  | invalidValue
  | unknownArgument
  | repeatedOption
  | needlessValue
  | help
  | version
deriving DecidableEq, Repr

/-- Options without a value. -/
inductive Switch where
  | quiet
  | verbose
  | help
  | version
deriving DecidableEq, Repr

/-- Options with a value. -/
inductive Setting where
  | suite
  | json
deriving DecidableEq, Repr

/-- An option by its long name. -/
def longOption? : String → Option (Switch ⊕ Setting)
  | "quiet" => some (.inl .quiet)
  | "verbose" => some (.inl .verbose)
  | "help" => some (.inl .help)
  | "version" => some (.inl .version)
  | "suite" => some (.inr .suite)
  | "json" => some (.inr .json)
  | _ => none

/-- An option by its letter. -/
def letterOption? : Char → Option Switch
  | 'q' => some .quiet
  | 'v' => some .verbose
  | 'h' => some .help
  | 'V' => some .version
  | _ => none

/-- What has been read so far. -/
structure Progress where
  suite : Option Suite
  json : Option String
  quiet : Bool
  verbose : Bool
  /-- A setting that has not been looked at, with its value if that has come. -/
  pending : Option (Setting × Option String)
deriving DecidableEq, Repr

namespace Progress

/-- Nothing has been read. -/
def start : Progress := ⟨none, none, false, false, none⟩

/-- Gives a setting its value. -/
def give (p : Progress) (value : String) : Setting → Except Stop Progress
  | .suite =>
    if p.suite.isSome then .error .repeatedOption
    else
      match Suite.ofName? value with
      | some suite => .ok { p with suite := some suite }
      | none => .error .invalidValue
  | .json =>
    if p.json.isSome then .error .repeatedOption
    else if value.isEmpty then .error .invalidValue
    else .ok { p with json := some value }

/-- Looks at the pending setting. -/
def settle (p : Progress) : Except Stop Progress :=
  match p.pending with
  | none => .ok p
  | some (_, none) => .error .invalidValue
  | some (setting, some value) => { p with pending := none }.give value setting

/-- Turns a switch on. -/
def turnOn (p : Progress) (switch : Switch) : Except Stop Progress := do
  let p ← p.settle
  match switch with
  | .quiet => if p.quiet then .error .repeatedOption else .ok { p with quiet := true }
  | .verbose => if p.verbose then .error .repeatedOption else .ok { p with verbose := true }
  | .help => .error .help
  | .version => .error .version

/-- Turns on the switches of a cluster of letters. -/
def turnOnAll (p : Progress) : List Char → Except Stop Progress
  | [] => .ok p
  | c :: cs =>
    match letterOption? c with
    | some switch => do
      let p ← p.turnOn switch
      p.turnOnAll cs
    | none => .error .unknownArgument

/-- Reads an option by its long name, with the value after the equals sign if there is one. -/
def readLong (p : Progress) (name : String) (value : Option String) : Except Stop Progress :=
  match longOption? name, value with
  | none, _ => .error .unknownArgument
  | some (.inl _), some _ => .error .needlessValue
  | some (.inl switch), none => p.turnOn switch
  | some (.inr setting), some value => do
    let p ← p.settle
    p.give value setting
  | some (.inr setting), none => do
    let p ← p.settle
    .ok { p with pending := some (setting, none) }

/-- Reads an argument that is no option: the value of the setting before it, or too much. -/
def readValue (p : Progress) (value : String) : Except Stop Progress :=
  match p.pending with
  | some (setting, none) => .ok { p with pending := some (setting, some value) }
  | _ => .error .unknownArgument

/-- The options at the end of the arguments. -/
def finish (p : Progress) : Except Stop Options := do
  let p ← p.settle
  .ok ⟨p.suite.getD .all, p.json, p.quiet, p.verbose⟩

/-- Reads one argument. -/
def readArgument (p : Progress) (argument : String) : Except Stop Progress :=
  match argument.toList with
  | '-' :: '-' :: cs =>
    let name := cs.takeWhile (· != '=')
    match cs.dropWhile (· != '=') with
    | [] => p.readLong (String.ofList name) none
    | _ :: value => p.readLong (String.ofList name) (some (String.ofList value))
  | '-' :: c :: cs => p.turnOnAll (c :: cs)
  | _ => p.readValue argument

end Progress

/-- Reads arguments. After two dashes no option may come, and the command takes nothing else. -/
def readFrom (p : Progress) : List String → Except Stop Options
  | [] => p.finish
  | "--" :: [] => p.finish
  | "--" :: _ :: _ => .error .unknownArgument
  | argument :: rest => do
    let p ← p.readArgument argument
    readFrom p rest

/-- The options that arguments ask for. -/
def read (arguments : List String) : Except Stop Options := readFrom .start arguments

end SharedValues.CommandLine
