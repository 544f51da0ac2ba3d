import Whiteboard.Json.Tree
import Whiteboard.Drawing.Kind
import Whiteboard.Geometry.Box

/-!
# Whiteboard — decoding trees

Decoders turn a `Tree` into a value of a known type and refuse everything else.
A record is written as an object, in which fields of other names are passed over
unread but a known one may stand only once, or as an array of its fields in the
order of their declaration.
-/

namespace Whiteboard.Decode

variable {α S : Type}

/-! ## Simple values -/

def text? : Tree → Option String
  | .string s => s
  | _ => none

def bool? : Tree → Option Bool
  | .bool b => some b
  | _ => none

/-- An integer that is written as one. -/
def int? : Tree → Option Int
  | .number l => l.int?
  | _ => none

/-- A number without a sign and below a bound. -/
def below? (bound : Nat) (t : Tree) : Option Nat :=
  (int? t).bind fun n => if 0 ≤ n ∧ n < bound then some n.toNat else none

def uint8? (t : Tree) : Option UInt8 := (below? UInt8.size t).map UInt8.ofNat

def uint32? (t : Tree) : Option UInt32 := (below? UInt32.size t).map UInt32.ofNat

def int64? (t : Tree) : Option Int64 :=
  (int? t).bind fun n => if n ≤ Int64.maxValue.toInt then some (Int64.ofInt n) else none

/-- Any number as a scalar. -/
def scalar? [Scalar S] [Numeral S] : Tree → Option S
  | .number l => l.number?.map fun
    | .int n => Scalar.ofInt n
    | .real x => x
  | _ => none

def list? (item? : Tree → Option α) : Tree → Option (List α)
  | .array items => items.mapM item?
  | _ => none

/-- A point is an array of two numbers. -/
def point? [Scalar S] [Numeral S] : Tree → Option (Point S)
  | .array [x, y] => do return ⟨← scalar? x, ← scalar? y⟩
  | _ => none

/-- A value, or `null` for none. -/
def option? (value? : Tree → Option α) : Tree → Option (Option α)
  | .null => some none
  | t => (value? t).map some

/-- How a member of a closed set may be written: by its name, or as an object with
the name as its only key and a value that says nothing. -/
def named? [Named α] (saysNothing : Tree → Bool) : Tree → Option α
  | .string (some s) => Named.ofName? s
  | .object [(some s, v)] => if saysNothing v then Named.ofName? s else none
  | _ => none

/-- The value `null`. -/
def isNull : Tree → Bool
  | .null => true
  | _ => false

/-- The value `null` or an object without fields. -/
def isEmpty : Tree → Bool
  | .null | .object [] => true
  | _ => false

/-! ## Records -/

/-- The known fields of a record, each once. -/
abbrev Fields := List (String × Tree)

/-- The known fields of an object: all keys are texts, and no known key repeats. -/
def known? (names : List String) (fields : List (Option String × Tree)) : Option Fields := do
  let all ← fields.mapM fun (f : Option String × Tree) => f.1.map fun key => (key, f.2)
  let known := all.filter fun f => names.contains f.1
  if (known.map Prod.fst).Nodup then some known else none

/-- The fields of a record that is an object or an array with at least `least`
items. -/
def record? (names : List String) (least : Nat) : Tree → Option Fields
  | .object fields => known? names fields
  | .array items =>
    if least ≤ items.length ∧ items.length ≤ names.length then some (names.zip items) else none
  | _ => none

namespace Fields

def get? (fs : Fields) (key : String) : Option Tree :=
  (fs.find? fun f => f.1 == key).map Prod.snd

/-- A field that must be there. -/
def required? (fs : Fields) (key : String) (value? : Tree → Option α) : Option α :=
  (fs.get? key).bind value?

/-- A field that takes a value of its own where it is missing. -/
def defaulted? (fs : Fields) (key : String) (missing : α) (value? : Tree → Option α) : Option α :=
  match fs.get? key with
  | none => some missing
  | some t => value? t

/-- A field that may be missing or `null`. -/
def optional? (fs : Fields) (key : String) (value? : Tree → Option α) : Option (Option α) :=
  fs.defaulted? key none (option? value?)

/-- A field in which `null` says something else than a missing field. -/
def nullable? (fs : Fields) (key : String) (value? : Tree → Option α) :
    Option (Option (Option α)) :=
  fs.defaulted? key none fun t => (option? value? t).map some

end Fields

end Whiteboard.Decode
