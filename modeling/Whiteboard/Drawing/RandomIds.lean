import Whiteboard.Drawing.Identity

/-!
# Whiteboard — random identities

An id is a random number of 128 bits, six of which mark it as random, in lower
case hexadecimal digits. Nonces are random as well.
-/

namespace Whiteboard.Drawing

/-- A source of random identities. -/
structure RandomIds where
  generator : StdGen

namespace RandomIds

/-- A source that starts from a number, which should itself be random. -/
def ofSeed (seed : Nat) : RandomIds := ⟨mkStdGen seed⟩

/-- A number of at most `bits` bits. -/
def number (bits : Nat) : StateM RandomIds Nat := fun s =>
  let (n, generator) := randNat s.generator 0 (Nat.pow 2 bits - 1)
  (n, ⟨generator⟩)

/-- The lowest hexadecimal digits of a number, as many as asked for. -/
def hexDigits (n : Nat) : Nat → List Char
  | 0 => []
  | count + 1 => Nat.digitChar (n / Nat.pow 16 count % 16) :: hexDigits n count

/-- A random id: the digit 4 and the bits 10 mark the kind of number. -/
def randomId : StateM RandomIds String := do
  let high ← number 48
  let middle ← number 12
  let low ← number 62
  return String.ofList
    (hexDigits high 12 ++ '4' :: hexDigits middle 3 ++ hexDigits (0x8000000000000000 + low) 16)

/-- A random number between 1 and the largest nonce. -/
def randomNonce : StateM RandomIds UInt32 := fun s =>
  let (n, generator) := randNat s.generator 1 maxNonce.toNat
  (UInt32.ofNat n, ⟨generator⟩)

instance : IdSource RandomIds where
  nextId := randomId
  nextNonce := randomNonce

end RandomIds

end Whiteboard.Drawing
