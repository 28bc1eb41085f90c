import RainCheck.Command.Arguments
import RainCheck.Command.Directory
import RainCheck.Report
import RainCheck.Settings

/-!
# Running commands

What the program writes and how it ends, as a function of its arguments and of the files around it.
* `check` shows the problems of files and counts them.
* `types` shows the exports of files, and their problems apart from these.
* The settings file comes first, then the features of the command line, then the source files: of several things that
  are wrong, only the first one is reported.
Nothing is coloured, because the program does not write to a terminal.
-/

namespace RainCheck

/-- How the program ends. -/
inductive ExitStatus where
  | success
  /-- The arguments are refused. -/
  | usage
  /-- The options are refused. -/
  | options
  /-- A source file cannot be read. -/
  | reading
  /-- A source file has problems. -/
  | problems
  deriving DecidableEq, Repr

/-- The number of an exit status. -/
def ExitStatus.code : ExitStatus → Nat
  | .success => 0
  | .usage => 1
  | .options => 2
  | .reading => 3
  | .problems => 4

/-- What the program writes, and how it ends. -/
structure Output where
  status : ExitStatus := .success
  out : List UInt8 := []
  err : List UInt8 := []
  deriving DecidableEq, Repr

/-- Why a command does nothing. -/
inductive CommandError where
  | usage (e : UsageError)
  | settingsFile (file : String) (e : FileError)
  | settings (e : SettingsError)
  | unknownFeature (name : String)
  | sourceFile (file : String) (e : FileError)
  | fault (f : Fault)
  deriving DecidableEq, Repr

namespace CommandError

/-- The message about a command that does nothing. -/
def message : CommandError → String
  | .usage e => "Error: " ++ e.message
  | .settingsFile file .isDirectory =>
    "parsing configuration " ++ file ++ ": yaml: input error: " ++ FileError.message file .isDirectory
  | .settingsFile file e => "opening configuration: " ++ e.message file
  | .settings e => e.message
  | .unknownFeature name => Feature.unknownMessage name
  | .sourceFile file e => "reading source file " ++ file ++ ": " ++ e.message file
  | .fault f => f.message?.getD "internal fault"

/-- The status with which a command ends that does nothing. -/
def status : CommandError → ExitStatus
  | .usage _ => .usage
  | .settingsFile _ _ | .settings _ | .unknownFeature _ | .fault _ => .options
  | .sourceFile _ _ => .reading

/-- What is written about a command that does nothing. -/
def output (e : CommandError) : Output :=
  let text := Utf8.encode (e.message ++ "\n")
  match e with
  | .usage _ | .fault _ => { status := e.status, err := text }
  | _ => { status := e.status, out := text }

end CommandError

namespace Arguments

/-- The options in the settings file, if there is one. -/
def settings (files : Files) (a : Arguments) : Except CommandError Options :=
  if a.config.isEmpty then .ok {}
  else
    match files a.config with
    | .ok bytes => (Options.ofSettings a.config bytes).mapError .settings
    | .error e => .error (.settingsFile a.config e)

/-- The features with the given names. -/
def namedFeatures : List String → Except CommandError (List Feature)
  | [] => .ok []
  | name :: rest =>
    match Feature.ofName? name with
    | some f => (f :: ·) <$> namedFeatures rest
    | none => .error (.unknownFeature name)

/-- The options of a command: those of the settings file, changed by the flags. -/
def options (files : Files) (a : Arguments) : Except CommandError Options := do
  let o ← a.settings files
  let o := o.withFeatures (← namedFeatures a.featureNames)
  return { o with
    constantFolding := o.constantFolding && !a.noFold
    continueOnError := o.continueOnError && !a.failFast }

/-- The source files of a command, of which there has to be one. -/
def sources (files : Files) (a : Arguments) : Except CommandError (List SourceFile) :=
  a.operands.mapM fun name =>
    match files name with
    | .ok bytes => .ok (SourceFile.ofBytes name bytes)
    | .error e => .error (.sourceFile name e)

/-- Compiles the source files of a command. -/
def compile (files : Files) (a : Arguments) : Except CommandError (List CompiledUnit) := do
  if a.operands.isEmpty then .error (.usage .noFiles)
  let o ← a.options files
  (compileAll o (← a.sources files)).mapError .fault

end Arguments

/-- The problems of a file as they are shown. -/
def CompiledUnit.printErrors (u : CompiledUnit) : Except Fault String := do
  return String.join (← u.errors.mapM (·.print u.file false))

/-- The status with which a command on compiled files ends. -/
def ExitStatus.ofUnits (units : List CompiledUnit) : ExitStatus :=
  if units.all (·.ok) then .success else .problems

/-- The last line about checked files. -/
def summary (units : List CompiledUnit) : String :=
  let problems := (units.flatMap (·.errors)).length
  "checked " ++ toString units.length ++ " file(s), found " ++ toString problems ++ " error(s)\n"

/-- What is written about checked files. -/
def checkOutput (quiet : Bool) (units : List CompiledUnit) : Except Fault Output := do
  let errors ← units.mapM (·.printErrors)
  return { status := .ofUnits units, out := Utf8.encode (String.join errors ++ if quiet then "" else summary units) }

/-- The width of what is written to a file or to another program. -/
def defaultWidth : Nat := 80

/-- The name of a file and its exports. -/
def CompiledUnit.listing (u : CompiledUnit) : Except Fault (List UInt8) := do
  return Utf8.encode (u.file.name ++ ":\n") ++ (← u.printExports false defaultWidth)

/-- What is written about the exports of files. -/
def typesOutput (units : List CompiledUnit) : Except Fault Output := do
  let listings ← units.mapM (·.listing)
  let errors ← units.mapM (·.printErrors)
  return {
    status := .ofUnits units
    out := (Utf8.encode "\n").intercalate listings
    err := Utf8.encode (String.join errors) }

/-- What the program says about itself. -/
def helpText : String :=
  "Semantic checker for the rain language.\n\n" ++
  "Usage:\n" ++
  "  rainc check [flags] file1.rain file2.rain ...\n" ++
  "  rainc types [flags] file1.rain file2.rain ...\n\n" ++
  "Flags:\n" ++
  "      --config string     read compiler options from a YAML file\n" ++
  "      --fail-fast         stop checking a file at its first error\n" ++
  "  -f, --feature string    enable an optional feature (e.g. sign-ext)\n" ++
  "      --no-colour         never highlight errors using ANSI escapes\n" ++
  "      --no-fold           disable constant folding of builtin calls\n" ++
  "  -q, --quiet             suppress the summary line (check only)\n" ++
  "  -v, --verbose           increase logging verbosity\n" ++
  "      --version           report version of this executable\n"

/-- The version of the program as it is shown. -/
def versionText : String := "rainc (unknown version)\n"

/-- Does what a request asks for. -/
def Request.perform (files : Files) (r : Request) : Except CommandError Output :=
  let a := r.arguments
  if a.help then .ok { out := Utf8.encode helpText }
  else
    match r.subcommand with
    | .overview => .ok { out := Utf8.encode (if a.version then versionText else helpText) }
    | .help => .ok { out := Utf8.encode helpText }
    | .check => do (checkOutput a.quiet (← a.compile files)).mapError .fault
    | .types => do (typesOutput (← a.compile files)).mapError .fault

/-- What the program does for a command line. -/
def runCommand (files : Files) (args : List String) : Output :=
  match (Request.ofArgs args).mapError .usage >>= Request.perform files with
  | .ok output => output
  | .error e => e.output

end RainCheck
