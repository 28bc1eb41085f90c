/-!
# Command line arguments

The arguments of the command line are flags, values of flags and operands.
* The first argument that is neither a flag nor the value of one names the subcommand.
* A flag has a long form `--name` or `--name=value`.  Some have a letter, and letters can be joined: `-qv`.
* A flag that needs a value and is written without one takes the next argument, whatever that is.
* Behind `--` everything is an operand.
-/

namespace RainCheck

/-- The flags of the command line. -/
inductive Flag where
  /-- Asks for more log messages. -/
  | verbose
  /-- Names the settings file. -/
  | config
  /-- Enables a feature; it can be given several times. -/
  | feature
  /-- Turns constant folding off. -/
  | noFold
  /-- Ends the check of a file with its first problem. -/
  | failFast
  /-- Turns colours off. -/
  | noColour
  /-- Leaves the summary line out. -/
  | quiet
  | version
  | help
  deriving DecidableEq, Repr

namespace Flag

/-- The long name of a flag. -/
def name : Flag → String
  | .verbose => "verbose"
  | .config => "config"
  | .feature => "feature"
  | .noFold => "no-fold"
  | .failFast => "fail-fast"
  | .noColour => "no-colour"
  | .quiet => "quiet"
  | .version => "version"
  | .help => "help"

/-- The letter of a flag. -/
def letter? : Flag → Option Char
  | .verbose => some 'v'
  | .feature => some 'f'
  | .quiet => some 'q'
  | .help => some 'h'
  | _ => none

/-- Whether a flag needs a value; the other flags are turned on by being written. -/
def needsValue : Flag → Bool
  | .config | .feature => true
  | _ => false

/-- The flags that every subcommand has. -/
def shared : List Flag := [.verbose, .config, .feature, .noFold, .failFast, .noColour]

end Flag

/-- What the program is asked to do. -/
inductive Subcommand where
  /-- Shows what the program does, if no subcommand is named. -/
  | overview
  | check
  | types
  | help
  deriving DecidableEq, Repr

namespace Subcommand

/-- The subcommand with a given name. -/
def ofName? : String → Option Subcommand
  | "check" => some .check
  | "types" => some .types
  | "help" => some .help
  | _ => none

/-- The flags of a subcommand. -/
def flags : Subcommand → List Flag
  | .overview => .version :: .help :: Flag.shared
  | .check => .quiet :: .help :: Flag.shared
  | .types | .help => .help :: Flag.shared

end Subcommand

/-- Why arguments are refused. -/
inductive UsageError where
  | unknownCommand (word : String)
  | badSyntax (arg : String)
  | unknownFlag (name : String)
  | unknownLetter (letter : Char)
  | missingValue (flag : Flag)
  | noTruthValue (flag : Flag) (value : String)
  | noFiles
  deriving DecidableEq, Repr

/-- The message about refused arguments. -/
def UsageError.message : UsageError → String
  | .unknownCommand word => "unknown command \"" ++ word ++ "\""
  | .badSyntax arg => "bad flag syntax: " ++ arg
  | .unknownFlag name => "unknown flag: --" ++ name
  | .unknownLetter letter => "unknown shorthand flag: -" ++ String.singleton letter
  | .missingValue flag => "flag needs an argument: --" ++ flag.name
  | .noTruthValue flag value => "invalid argument \"" ++ value ++ "\" for --" ++ flag.name
  | .noFiles => "requires at least 1 file"

/-- The values of the flags, and the operands. -/
structure Arguments where
  verbose : Bool := false
  config : String := ""
  /-- The features to enable, in the order in which they are given. -/
  features : List String := []
  noFold : Bool := false
  failFast : Bool := false
  noColour : Bool := false
  quiet : Bool := false
  version : Bool := false
  help : Bool := false
  operands : List String := []
  deriving DecidableEq, Repr

namespace Arguments

/-- The truth value that a word stands for. -/
def truth? (word : String) : Option Bool :=
  if ["1", "t", "T", "true", "TRUE", "True"].contains word then some true
  else if ["0", "f", "F", "false", "FALSE", "False"].contains word then some false
  else none

/-- Sets a flag to a value. -/
def set (a : Arguments) (flag : Flag) (value : String) : Except UsageError Arguments := do
  let on : Except UsageError Bool :=
    match truth? value with
    | some b => .ok b
    | none => .error (.noTruthValue flag value)
  match flag with
  | .config => return { a with config := value }
  | .feature => return { a with features := a.features ++ [value] }
  | .verbose => return { a with verbose := ← on }
  | .noFold => return { a with noFold := ← on }
  | .failFast => return { a with failFast := ← on }
  | .noColour => return { a with noColour := ← on }
  | .quiet => return { a with quiet := ← on }
  | .version => return { a with version := ← on }
  | .help => return { a with help := ← on }

/-- A flag in its long form, without the hyphens.  If its value is still to come, the flag is returned. -/
def readLong (flags : List Flag) (a : Arguments) (body : List Char) : Except UsageError (Arguments × Option Flag) := do
  let name := String.ofList (body.takeWhile (· != '='))
  if name.isEmpty || name.startsWith "-" then .error (.badSyntax ("--" ++ String.ofList body))
  match flags.find? (·.name = name) with
  | none => .error (.unknownFlag name)
  | some flag =>
    match body.dropWhile (· != '=') with
    | _ :: value => return (← a.set flag (String.ofList value), none)
    | [] => if flag.needsValue then return (a, some flag) else return (← a.set flag "true", none)

/--
Joined letters of flags, without the hyphen.  If the value of the last one is still to come, that flag is returned.
Letters that start with `test.` are meant for a test runner around the program, and have no effect.
-/
def readLetters (flags : List Flag) : Arguments → List Char → Except UsageError (Arguments × Option Flag)
  | a, [] => .ok (a, none)
  | a, letter :: more =>
    if "test.".toList.isPrefixOf (letter :: more) then .ok (a, none)
    else
      match flags.find? (·.letter? = some letter) with
      | none => .error (.unknownLetter letter)
      | some flag => do
        if more.head? = some '=' && 1 < more.length then return (← a.set flag (String.ofList (more.drop 1)), none)
        else if !flag.needsValue then readLetters flags (← a.set flag "true") more
        else if more.isEmpty then return (a, some flag)
        else return (← a.set flag (String.ofList more), none)

/-- Reads arguments; `pending` is a flag in front of them that waits for its value. -/
def readFrom (flags : List Flag) : (pending : Option Flag) → Arguments → List String → Except UsageError Arguments
  | none, a, [] => .ok a
  | some flag, _, [] => .error (.missingValue flag)
  | some flag, a, arg :: rest => do readFrom flags none (← a.set flag arg) rest
  | none, a, arg :: rest =>
    match arg.toList with
    | ['-', '-'] => .ok { a with operands := a.operands ++ rest }
    | '-' :: '-' :: body => do
      let (a, pending) ← readLong flags a body
      readFrom flags pending a rest
    | '-' :: letter :: more => do
      let (a, pending) ← readLetters flags a (letter :: more)
      readFrom flags pending a rest
    | _ => readFrom flags none { a with operands := a.operands ++ [arg] } rest

/-- A text in which line ends of two characters are written with one. -/
def joinLineEnds : List Char → List Char
  | [] => []
  | '\r' :: '\n' :: rest => '\n' :: joinLineEnds rest
  | c :: rest => c :: joinLineEnds rest

/--
The names of the features to enable.  They are kept as one row of a table of texts, so a single empty name counts as
none, and a line end in a name is a line feed.
-/
def featureNames (a : Arguments) : List String :=
  if a.features = [""] then [] else a.features.map fun name => String.ofList (joinLineEnds name.toList)

/-- Reads the arguments of a subcommand. -/
def read (c : Subcommand) (args : List String) : Except UsageError Arguments := readFrom c.flags none {} args

end Arguments

/-- The flags that are known while the subcommand is looked for. -/
def Flag.early : List Flag := .version :: Flag.shared

/-- Whether an argument in front of the subcommand is taken as a flag whose value is the next argument. -/
def awaitsValue (arg : String) : Bool :=
  let switch (p : Flag → Bool) := Flag.early.any fun flag => p flag && !flag.needsValue
  match arg.toList with
  | '-' :: '-' :: name => !name.contains '=' && !switch (·.name = String.ofList name)
  | ['-', letter] => arg.utf8ByteSize = 2 && letter != '=' && !switch (·.letter? = some letter)
  | _ => false

/--
The word that names the subcommand, and the other arguments in their order.  `passed` holds the arguments in front, last
one first, and `value` says that the next argument is taken as a value.
-/
def splitWord : (value : Bool) → (passed : List String) → List String → Option (String × List String)
  | _, _, [] => none
  | true, passed, arg :: rest => splitWord false (arg :: passed) rest
  | false, passed, arg :: rest =>
    if arg = "--" then none
    else if arg.isEmpty || arg.startsWith "-" then splitWord (awaitsValue arg) (arg :: passed) rest
    else some (arg, passed.reverse ++ rest)

/-- A subcommand with its arguments. -/
structure Request where
  subcommand : Subcommand
  arguments : Arguments
  deriving DecidableEq, Repr

namespace Request

/-- The request that a command line makes. -/
def ofArgs (args : List String) : Except UsageError Request := do
  let (subcommand, args) ←
    match splitWord false [] args with
    | none => pure (Subcommand.overview, args)
    | some (word, rest) =>
      match Subcommand.ofName? word with
      | some c => pure (c, rest)
      | none => .error (.unknownCommand word)
  return ⟨subcommand, ← Arguments.read subcommand args⟩

/-- The files that a request may read. -/
def files (r : Request) : List String :=
  (if r.arguments.config.isEmpty then [] else [r.arguments.config]) ++ r.arguments.operands

end Request

end RainCheck
