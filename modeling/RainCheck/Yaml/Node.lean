/-!
# Documents

The nodes of a YAML document, and which scalars stand for nothing or for a truth value.
-/

namespace RainCheck.Yaml

/-- A node of a document.  A scalar is plain if it is written without quotes. -/
inductive Node where
  | scalar (plain : Bool) (text : String)
  | sequence (items : List Node)
  | mapping (entries : List (Node × Node))

namespace Node

/-- The scalar that is not written at all. -/
def absent : Node := .scalar true ""

/-- Whether a node stands for nothing. -/
def isNull : Node → Bool
  | .scalar true text => ["", "~", "null", "Null", "NULL"].contains text
  | _ => false

/-- The text of a scalar. -/
def text? : Node → Option String
  | .scalar _ text => some text
  | _ => none

/-- The truth value of a scalar; some words count even in quotes. -/
def bool? : Node → Option Bool
  | .scalar plain text =>
    if plain && ["true", "True", "TRUE"].contains text then some true
    else if plain && ["false", "False", "FALSE"].contains text then some false
    else if ["y", "Y", "yes", "Yes", "YES", "on", "On", "ON"].contains text then some true
    else if ["n", "N", "no", "No", "NO", "off", "Off", "OFF"].contains text then some false
    else none
  | _ => none

end Node

end RainCheck.Yaml
