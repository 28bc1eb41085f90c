import RainCheck.Options
import RainCheck.Yaml.Document

/-!
# Settings

Options read from a settings file, a mapping with the keys `features`, `constant-folding` and `continue-on-error`.
* A key that is absent or has no value keeps the default.
* Other keys, repeated keys and values of the wrong type make the file unreadable.
* Unknown features are all reported together.
-/

namespace RainCheck

/-- The content of a settings file. -/
structure Settings where
  features : List String := []
  constantFolding : Option Bool := none
  continueOnError : Option Bool := none
  deriving DecidableEq, Repr

/-- Why a settings file gives no options. -/
inductive SettingsError where
  /-- The file is no mapping with the known keys and values. -/
  | unreadable (file : String)
  /-- The file names features that do not exist. -/
  | unknownFeatures (file : String) (names : List String)
  deriving DecidableEq, Repr

namespace SettingsError

/-- The single problems of a settings file. -/
def issues : SettingsError → List String
  | .unreadable _ => []
  | .unknownFeatures _ names => names.map Feature.unknownMessage

/-- The message about a settings file. -/
def message : SettingsError → String
  | .unreadable file => "parsing configuration " ++ file ++ ": malformed document"
  | .unknownFeatures file names =>
    "invalid configuration " ++ file ++ String.join ((issues (.unknownFeatures file names)).map ("\n- " ++ ·))

end SettingsError

namespace Settings

/-- The texts of the items of a sequence of scalars; items without a value are left out. -/
def texts? : List Yaml.Node → Option (List String)
  | [] => some []
  | item :: rest => do
    let text ← item.text?
    let texts ← texts? rest
    return if item.isNull then texts else text :: texts

/-- The value of a truth value, if there is one. -/
def truth? (node : Yaml.Node) : Option (Option Bool) :=
  if node.isNull then some none else node.bool?.map some

/-- Sets the value of a key. -/
def set? (s : Settings) (key : String) (value : Yaml.Node) : Option Settings :=
  match key with
  | "features" =>
    match value with
    | .sequence items => do return { s with features := ← texts? items }
    | value => if value.isNull then some s else none
  | "constant-folding" => do return { s with constantFolding := ← truth? value }
  | "continue-on-error" => do return { s with continueOnError := ← truth? value }
  | _ => none

/-- Sets the values of the entries of a mapping, whose keys all differ from those in `seen` and from each other. -/
def entries? : (seen : List String) → Settings → List (Yaml.Node × Yaml.Node) → Option Settings
  | _, s, [] => some s
  | seen, s, (key, value) :: rest => do
    let name ← key.text?
    if seen.contains name then none
    let s ← if key.isNull then some s else s.set? name value
    entries? (name :: seen) s rest

/-- The settings of a document. -/
def ofNode? : Yaml.Node → Option Settings
  | .mapping entries => entries? [] {} entries
  | node => if node.isNull then some {} else none

/-- The options of settings; every feature has to exist. -/
def options (file : String) (s : Settings) : Except SettingsError Options :=
  let unknown := s.features.filter fun name => (Feature.ofName? name).isNone
  if unknown.isEmpty then
    let features := s.features.filterMap Feature.ofName?
    let o : Options := {}
    .ok
      { o.withFeatures features with
        constantFolding := s.constantFolding.getD o.constantFolding
        continueOnError := s.continueOnError.getD o.continueOnError }
  else .error (.unknownFeatures file unknown)

end Settings

/-- The options in a settings file. -/
def Options.ofSettings (file : String) (bytes : List UInt8) : Except SettingsError Options :=
  match (Yaml.read? bytes).bind Settings.ofNode? with
  | some s => s.options file
  | none => .error (.unreadable file)

end RainCheck
