/-!
# Whiteboard — JSON values

JSON values over a type of scalars. A number is an integer or a scalar, since
the two are written differently. The fields of an object are a list, so that a
record can be written in the order of its declaration; `Json.ofFields` builds an
object with its keys in order and each key once.
-/

namespace Whiteboard

/-- An integer, or a number with a fraction or an exponent. -/
inductive Number (S : Type) where
  | int (value : Int)
  | real (value : S)
  deriving DecidableEq, Repr

inductive Json (S : Type) where
  | null
  | bool (value : Bool)
  | number (value : Number S)
  | string (value : String)
  | array (items : List (Json S))
  | object (fields : List (String × Json S))
  deriving Repr

namespace Json

variable {S : Type}

instance : Inhabited (Json S) := ⟨.null⟩

/-- Adds a field to fields in order of their keys, in place of one with its key. -/
def insertField (key : String) (value : Json S) :
    List (String × Json S) → List (String × Json S)
  | [] => [(key, value)]
  | (k, v) :: rest =>
    if key = k then (key, value) :: rest
    else if key < k then (key, value) :: (k, v) :: rest
    else (k, v) :: insertField key value rest

/-- Fields in order of their keys; of two with one key the later counts. -/
def sortedFields (fields : List (String × Json S)) : List (String × Json S) :=
  fields.foldl (fun sorted (key, value) => insertField key value sorted) []

/-- The object with these fields in order of their keys. -/
def ofFields (fields : List (String × Json S)) : Json S := .object (sortedFields fields)

/-- The value of a field. -/
def field? (key : String) (fields : List (String × Json S)) : Option (Json S) :=
  (fields.find? fun f => f.1 == key).map Prod.snd

/-- The value of a field of an object. -/
def get? (key : String) : Json S → Option (Json S)
  | .object fields => field? key fields
  | _ => none

def isNull : Json S → Bool
  | .null => true
  | _ => false

def isBool : Json S → Bool
  | .bool _ => true
  | _ => false

def isNumber : Json S → Bool
  | .number _ => true
  | _ => false

def string? : Json S → Option String
  | .string s => some s
  | _ => none

def isString (v : Json S) : Bool := v.string?.isSome

def array? : Json S → Option (List (Json S))
  | .array items => some items
  | _ => none

def object? : Json S → Option (List (String × Json S))
  | .object fields => some fields
  | _ => none

/-- A natural number as an integer. -/
def nat (n : Nat) : Json S := .number (.int n)

/-- A value or `null`. -/
def orNull : Option (Json S) → Json S
  | some v => v
  | none => .null

end Json

end Whiteboard
