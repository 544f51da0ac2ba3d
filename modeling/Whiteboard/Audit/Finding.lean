import Whiteboard.Json.Printer

/-!
# Whiteboard — findings

What an audit of a JSON value says: a list of errors, which make the value
invalid, and a list of warnings. A finding is a `Path` to a part of the value and
a `Problem`; their texts are derived, so that a finding can be reasoned about
without them.
-/

namespace Whiteboard.Audit

/-! ## Paths -/

/-- A step from a value to a part of it. -/
inductive Step where
  | key (name : String)
  | index (n : Nat)
  deriving DecidableEq, Repr

/-- The steps from the audited value to a part of it. -/
abbrev Path := List Step

def Step.text : Step → String
  | .key name => "." ++ name
  | .index n => "[" ++ toString n ++ "]"

/-- The steps after the first. -/
def stepsText : Path → String
  | [] => ""
  | step :: rest => step.text ++ stepsText rest

/-- A path as users see it; the first key has no dot before it, and the value
itself is the root. -/
def pathText : Path → String
  | [] => "root"
  | .key name :: rest => name ++ stepsText rest
  | steps => stepsText steps

/-! ## Problems -/

/-- What a field should have held. -/
inductive Expected where
  | object | array | string | number | boolean | colorString
  | stringOrNull | numberOrNull | arrayOrNull | objectOrNull
  deriving DecidableEq, Repr

def Expected.text : Expected → String
  | .object => "an object"
  | .array => "an array"
  | .string => "a string"
  | .number => "a number"
  | .boolean => "a boolean"
  | .colorString => "a color string"
  | .stringOrNull => "a string or null"
  | .numberOrNull => "a number or null"
  | .arrayOrNull => "an array or null"
  | .objectOrNull => "an object or null"

inductive Problem (S : Type) where
  | documentNotObject
  | elementNotObject
  | missingField (name : String)
  | wrongType (name : String) (expected : Expected)
  | wrongFormat (expected : String) (found : Json S)
  | unknownVersion (version : Number S)
  | unknownKind (name : String)
  | invalidName (field : String) (name : String)
  | groupIdNotString
  | boundElementNotObject
  | boundElementWithoutId
  | boundElementWithoutKind
  | opacityOutside (value : S)
  | angleOutside (value : S)
  | textWithoutText
  | pointNotPair
  | pressuresNotNumbers
  | bindingWithoutElement
  | duplicateId (id : String) (first : Nat)
  | unknownBindingTarget (id : String)
  | unknownBoundElement (id : String)
  deriving Repr

/-- A name between backticks. -/
def ticked (name : String) : String := "\x60" ++ name ++ "\x60"

/-- A text between double quotes, as it is. -/
def doubleQuoted (text : String) : String := "\"" ++ text ++ "\""

/-- What a user is told. -/
def Problem.message {S : Type} [Numeral S] : Problem S → String
  | .documentNotObject => "document must be a JSON object"
  | .elementNotObject => "element must be a JSON object"
  | .missingField name => "missing required field " ++ ticked name
  | .wrongType name expected => ticked name ++ " must be " ++ expected.text
  | .wrongFormat expected found =>
    "expected " ++ doubleQuoted expected ++ ", found " ++ found.compact
  | .unknownVersion version =>
    "format version " ++ String.ofList (Json.numberText version) ++
      " is outside the known range 1-3"
  | .unknownKind name => "unknown element type " ++ doubleQuoted name
  | .invalidName field name => "invalid " ++ ticked field ++ " value " ++ doubleQuoted name
  | .groupIdNotString => "group id must be a string"
  | .boundElementNotObject => "bound element must be an object"
  | .boundElementWithoutId => "bound element requires a string " ++ ticked "id"
  | .boundElementWithoutKind => "bound element requires a known " ++ ticked "type"
  | .opacityOutside value => "opacity " ++ Numeral.plainText value ++ " is outside 0-100"
  | .angleOutside value => "angle " ++ Numeral.plainText value ++ " is outside ±2π"
  | .textWithoutText => "text element requires a string " ++ ticked "text"
  | .pointNotPair => "point must be an [x, y] pair of numbers"
  | .pressuresNotNumbers => ticked "pressures" ++ " must contain only numbers"
  | .bindingWithoutElement => "binding requires a string " ++ ticked "elementId"
  | .duplicateId id first =>
    "duplicate id " ++ doubleQuoted id ++ " (first used by elements[" ++ toString first ++ "])"
  | .unknownBindingTarget id => "binding targets unknown element " ++ doubleQuoted id
  | .unknownBoundElement id => "bound element references unknown element " ++ doubleQuoted id

/-! ## Findings and reports -/

structure Finding (S : Type) where
  path : Path
  problem : Problem S
  deriving Repr

/-- A finding about a part, seen from the whole. -/
def Finding.under {S : Type} (path : Path) (f : Finding S) : Finding S :=
  { f with path := path ++ f.path }

/-- The outcome of an audit. -/
structure Report (S : Type) where
  errors : List (Finding S)
  warnings : List (Finding S)

namespace Report

variable {S : Type}

/-- A value without errors is valid, whatever the warnings. -/
def valid (r : Report S) : Bool := r.errors.isEmpty

/-- The report in which every warning counts as an error. -/
def strict (r : Report S) : Report S := ⟨r.errors ++ r.warnings, []⟩

/-- A report about a part, seen from the whole. -/
def under (path : Path) (r : Report S) : Report S :=
  ⟨r.errors.map (.under path), r.warnings.map (.under path)⟩

end Report

end Whiteboard.Audit
