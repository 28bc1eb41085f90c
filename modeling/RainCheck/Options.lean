import RainCheck.Fault

/-!
# Options

What the checker may assume about its target, and how it works:
* optional features, some of which builtins need;
* whether builtins on constants are computed;
* whether checking goes on with the next declaration after one fails.
-/

namespace RainCheck

/-- Optional features of the target; other features are only known by number. -/
inductive Feature where
  | signExtension
  | saturatingConversion
  | bulkMemory
  | simd
  | unlisted (number : Nat)
  deriving DecidableEq, Repr

namespace Feature

/-- The named features, in the order of their numbers. -/
def listed : List Feature := [.signExtension, .saturatingConversion, .bulkMemory, .simd]

/-- The number of a feature. -/
def number : Feature → Nat
  | .signExtension => 0
  | .saturatingConversion => 1
  | .bulkMemory => 2
  | .simd => 3
  | .unlisted n => n

/-- The numbers that features have lie below this bound. -/
def numberBound : Nat := 0x8000000000000000

/-- The feature with a given number. -/
def ofNumber (n : Nat) : Except Fault Feature :=
  if n < numberBound then .ok (listed[n]?.getD (.unlisted n)) else .error .outOfRange

/-- The name of a feature. -/
def name : Feature → String
  | .signExtension => "sign-ext"
  | .saturatingConversion => "nontrapping-fptoint"
  | .bulkMemory => "bulk-memory"
  | .simd => "simd"
  | .unlisted n => "feature(" ++ toString n ++ ")"

/-- The feature with a given name. -/
def ofName? (name : String) : Option Feature := listed.find? (·.name = name)

/-- The message about a name that no feature has. -/
def unknownMessage (name : String) : String :=
  "unknown feature \"" ++ name ++ "\" (expected one of " ++ ", ".intercalate (listed.map Feature.name) ++ ")"

/-- Adds a feature to a list that is sorted by number and has no feature twice. -/
def insert (f : Feature) : List Feature → List Feature
  | [] => [f]
  | g :: rest =>
    if f.number < g.number then f :: g :: rest
    else if f.number = g.number then g :: rest
    else g :: insert f rest

end Feature

/-- Options of a compilation. -/
structure Options where
  /-- The enabled features, sorted by number. -/
  features : List Feature := []
  /-- Builtins on constants are computed. -/
  constantFolding : Bool := true
  /-- Checking goes on after a declaration fails. -/
  continueOnError : Bool := true
  deriving DecidableEq, Repr

namespace Options

/-- Enables more features. -/
def withFeatures (o : Options) (features : List Feature) : Options :=
  { o with features := features.foldl (fun fs f => f.insert fs) o.features }

/-- Whether a feature is enabled. -/
def has (o : Options) (f : Feature) : Bool := o.features.contains f

/-- A set of features below this number fits into memory. -/
def numberCapacity : Nat := 0x4000000000000

/-- The largest number there is; no set has room for it. -/
def largestNumber : Nat := 0xFFFFFFFFFFFFFFFF

/-- Enables the feature with a given number, for which there has to be room. -/
def withNumber (o : Options) (n : Nat) : Except Fault Options :=
  if largestNumber ≤ n then .error .setCapacity
  else if numberCapacity ≤ n then .error .tooLarge
  else return o.withFeatures [← Feature.ofNumber n]

/-- Enables the features with the given numbers, one after the other. -/
def withNumbers (o : Options) (numbers : List Nat) : Except Fault Options := numbers.foldlM withNumber o

/-- Whether the feature with a given number is enabled. -/
def hasNumber (o : Options) (n : Nat) : Bool := o.features.any (·.number = n)

/-- The text of options. -/
def text (o : Options) : String :=
  "features=[" ++ ",".intercalate (o.features.map Feature.name) ++ "] folding=" ++ toString o.constantFolding ++
    " continue=" ++ toString o.continueOnError

end Options

end RainCheck
