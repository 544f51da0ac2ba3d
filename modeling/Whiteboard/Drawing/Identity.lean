import Whiteboard.Drawing.Error

/-!
# Whiteboard — identities

Elements carry an id, a seed and a nonce. All three are drawn from an
`IdSource`, a state that hands them out one after another, so that whoever calls
the library decides between random and reproducible ones.
-/

namespace Whiteboard.Drawing

/-- States from which ids, nonces and seeds are drawn. -/
class IdSource (G : Type) where
  nextId : StateM G String
  nextNonce : StateM G UInt32
  /-- A seed is a nonce unless the source says otherwise. -/
  nextSeed : StateM G UInt32 := nextNonce

/-- Work that draws identities and may fail; what was drawn before a failure stays
drawn. -/
abbrev Draws (G : Type) (α : Type) := ExceptT Error (StateM G) α

/-- Draws of a source that cannot fail. -/
def draw {G α : Type} (act : StateM G α) : Draws G α := ExceptT.lift act

/-- The outcome of work that draws nothing. -/
def settle {G α : Type} (outcome : Except Error α) : Draws G α := ExceptT.mk (pure outcome)

/-- Nonces and seeds lie between 1 and this number. -/
def maxNonce : UInt32 := 0x7FFFFFFF

/-- A reproducible source: ids are a stem, a dash and 1, 2, 3, …; nonces count up
from 1 and start over after the largest. -/
structure SequentialIds where
  stem : String
  /-- The number of the id handed out last. It starts over after 64 bits. -/
  counter : UInt64
  /-- The nonce handed out last. -/
  nonce : UInt32
  deriving DecidableEq, Repr

namespace SequentialIds

/-- A source that has handed out nothing yet. -/
def fresh (stem : String) : SequentialIds := ⟨stem, 0, 0⟩

/-- How many ids were handed out, according to the counter. -/
def issued (s : SequentialIds) : Nat := s.counter.toNat

/-- The id with a number. -/
def idAt (stem : String) (n : Nat) : String := stem ++ "-" ++ toString n

/-- The nonce after a nonce. -/
def nonceAfter (nonce : UInt32) : UInt32 := if maxNonce ≤ nonce then 1 else nonce + 1

instance : IdSource SequentialIds where
  nextId := fun s => (idAt s.stem (s.counter + 1).toNat, { s with counter := s.counter + 1 })
  nextNonce := fun s => (nonceAfter s.nonce, { s with nonce := nonceAfter s.nonce })

end SequentialIds

end Whiteboard.Drawing
