import RainCheck.Source.Location

/-!
# Diagnostics

A `Diagnostic` is a problem of a program: a cause and the span it is about.
* `Cause` names what is wrong, with the names and types concerned;
* `Cause.kind` sorts causes into kinds, and `Cause.message` is the only place with their wording;
* a `Stop` ends a computation early, with a diagnostic or with a fault.
-/

namespace RainCheck

/-- The kinds of diagnostics; other kinds are only known by number. -/
inductive Kind where
  | lexError
  | syntaxError
  | undefinedSymbol
  | duplicateDeclaration
  | typeMismatch
  | immutableAssignment
  | recursiveTypeDefinition
  | arityMismatch
  | memberNotFound
  | notCallable
  | missingMember
  | notAddressable
  | invalidControlFlow
  | featureDisabled
  | unlisted (number : Nat)
  deriving DecidableEq, Repr

namespace Kind

/-- The named kinds, in the order of their numbers. -/
def listed : List Kind :=
  [.lexError, .syntaxError, .undefinedSymbol, .duplicateDeclaration, .typeMismatch, .immutableAssignment,
    .recursiveTypeDefinition, .arityMismatch, .memberNotFound, .notCallable, .missingMember, .notAddressable,
    .invalidControlFlow, .featureDisabled]

/-- The numbers that kinds have lie below this bound. -/
def numberBound : Nat := 0x8000000000000000

/-- The kind with a given number. -/
def ofNumber (n : Nat) : Except Fault Kind :=
  if n < numberBound then .ok (listed[n]?.getD (.unlisted n)) else .error .outOfRange

/-- The name of a kind. -/
def name : Kind → String
  | .lexError => "LexError"
  | .syntaxError => "SyntaxError"
  | .undefinedSymbol => "UndefinedSymbol"
  | .duplicateDeclaration => "DuplicateDeclaration"
  | .typeMismatch => "TypeMismatch"
  | .immutableAssignment => "ImmutableAssignment"
  | .recursiveTypeDefinition => "RecursiveTypeDefinition"
  | .arityMismatch => "ArityMismatch"
  | .memberNotFound => "MemberNotFound"
  | .notCallable => "NotCallable"
  | .missingMember => "MissingMember"
  | .notAddressable => "NotAddressable"
  | .invalidControlFlow => "InvalidControlFlow"
  | .featureDisabled => "FeatureDisabled"
  | .unlisted n => "Kind(" ++ toString n ++ ")"

end Kind

/-- What is wrong with a program. -/
inductive Cause where
  /-- Text that is no token. -/
  | unknownText
  /-- A token that cannot stand where it does. -/
  | unexpectedToken
  /-- A token that starts no declaration. -/
  | unknownDeclaration
  /-- A token that starts no type. -/
  | unknownType
  /-- A statement without the semicolon it needs. -/
  | expectedSemicolon
  /-- An integer literal above the largest one. -/
  | integerOutOfRange
  /-- A floating point literal above the largest number. -/
  | invalidFloat
  /-- A name that is not in scope. -/
  | unknownSymbol (name : String)
  /-- A name that is declared twice in one place. -/
  | duplicateDeclaration (name : String)
  /-- An expression of the wrong type. -/
  | typeMismatch (expected found : String)
  /-- An assignment to a variable that is not mutable. -/
  | immutableAssignment (name : String)
  /-- Structs that contain each other. -/
  | recursiveType (cycle : List String)
  /-- A call with the wrong number of arguments. -/
  | arityMismatch (expected found : Int)
  /-- A member that a struct does not have. -/
  | unknownMember (owner member : String)
  /-- A call of something that is no function. -/
  | notCallable (found : String)
  /-- A struct literal without one of the fields. -/
  | missingMember (owner member : String)
  /-- An expression that has no location, where one is needed. -/
  | notAddressable
  /-- A jump outside of the construct it belongs to. -/
  | misplacedJump (keyword construct : String)
  /-- A builtin whose feature is not enabled. -/
  | featureDisabled (builtin feature : String)
  /-- A problem with a kind and a wording of its own. -/
  | other (kind : Kind) (message : String)
  deriving DecidableEq, Repr

namespace Cause

/-- The kind of a cause. -/
def kind : Cause → Kind
  | .unknownText => .lexError
  | .unexpectedToken => .syntaxError
  | .unknownDeclaration => .syntaxError
  | .unknownType => .syntaxError
  | .expectedSemicolon => .syntaxError
  | .integerOutOfRange => .syntaxError
  | .invalidFloat => .syntaxError
  | .unknownSymbol _ => .undefinedSymbol
  | .duplicateDeclaration _ => .duplicateDeclaration
  | .typeMismatch _ _ => .typeMismatch
  | .immutableAssignment _ => .immutableAssignment
  | .recursiveType _ => .recursiveTypeDefinition
  | .arityMismatch _ _ => .arityMismatch
  | .unknownMember _ _ => .memberNotFound
  | .notCallable _ => .notCallable
  | .missingMember _ _ => .missingMember
  | .notAddressable => .notAddressable
  | .misplacedJump _ _ => .invalidControlFlow
  | .featureDisabled _ _ => .featureDisabled
  | .other kind _ => kind

/-- The wording of a cause. -/
def message : Cause → String
  | .unknownText => "unknown text encountered"
  | .unexpectedToken => "unexpected token"
  | .unknownDeclaration => "unknown declaration"
  | .unknownType => "unknown type"
  | .expectedSemicolon => "expected ;"
  | .integerOutOfRange => "integer literal out of range"
  | .invalidFloat => "invalid float literal"
  | .unknownSymbol name => "unknown symbol " ++ name
  | .duplicateDeclaration name => "duplicate declaration " ++ name
  | .typeMismatch expected found => "expected type " ++ expected ++ ", found " ++ found
  | .immutableAssignment name => "cannot assign to immutable variable " ++ name
  | .recursiveType cycle => "recursive type definition " ++ " -> ".intercalate cycle
  | .arityMismatch expected found => "expected " ++ toString expected ++ " argument(s), found " ++ toString found
  | .unknownMember owner member => "unknown member " ++ member ++ " in " ++ owner
  | .notCallable found => "type " ++ found ++ " is not callable"
  | .missingMember owner member => "missing member " ++ member ++ " in " ++ owner
  | .notAddressable => "expression has no location"
  | .misplacedJump keyword construct => keyword ++ " outside of " ++ construct
  | .featureDisabled builtin feature => "builtin @" ++ builtin ++ " requires feature " ++ feature
  | .other _ message => message

end Cause

/-- A problem of a program and where it is. -/
structure Diagnostic where
  span : Span
  cause : Cause
  deriving DecidableEq, Repr

namespace Diagnostic

/-- The kind of a diagnostic. -/
def kind (d : Diagnostic) : Kind := d.cause.kind

/-- The message of a diagnostic, without its position. -/
def message (d : Diagnostic) : String := d.cause.message

/-- The text `file:line:column: message` of a diagnostic of a file. -/
def text (file : SourceFile) (d : Diagnostic) : String := file.positionText d.span.start ++ ": " ++ d.message

end Diagnostic

/-- Why a computation ended early. -/
inductive Stop where
  /-- The program has a problem. -/
  | refused (d : Diagnostic)
  /-- The library was misused. -/
  | fault (f : Fault)
  deriving DecidableEq, Repr

/-- A computation that can only fail by misuse, as one that can also refuse the program. -/
def Stop.lift {α : Type} : Except Fault α → Except Stop α
  | .ok a => .ok a
  | .error f => .error (.fault f)

end RainCheck
