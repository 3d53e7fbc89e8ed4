import PerceptronMesh.Wire.Word

/-!
SipHash with one compression round a word and three final rounds.
-/

namespace PerceptronMesh.Hash

structure SipState where
  v0 : UInt64
  v1 : UInt64
  v2 : UInt64
  v3 : UInt64
deriving DecidableEq, Repr

def rotateLeft (x : UInt64) (n : UInt64) : UInt64 := (x <<< n) ||| (x >>> (64 - n))

namespace SipState

/-- The initial state for a key of two words. -/
def init (key0 key1 : UInt64) : SipState where
  v0 := key0 ^^^ 0x736f6d6570736575
  v1 := key1 ^^^ 0x646f72616e646f6d
  v2 := key0 ^^^ 0x6c7967656e657261
  v3 := key1 ^^^ 0x7465646279746573

def round (s : SipState) : SipState :=
  let v0 := s.v0 + s.v1
  let v1 := rotateLeft s.v1 13 ^^^ v0
  let v0 := rotateLeft v0 32
  let v2 := s.v2 + s.v3
  let v3 := rotateLeft s.v3 16 ^^^ v2
  let v0 := v0 + v3
  let v3 := rotateLeft v3 21 ^^^ v0
  let v2 := v2 + v1
  let v1 := rotateLeft v1 17 ^^^ v2
  let v2 := rotateLeft v2 32
  ⟨v0, v1, v2, v3⟩

/-- Takes in one word. -/
def absorb (s : SipState) (word : UInt64) : SipState :=
  let mixed := { s with v3 := s.v3 ^^^ word }.round
  { mixed with v0 := mixed.v0 ^^^ word }

def finish (s : SipState) : UInt64 :=
  let mixed := { s with v2 := s.v2 ^^^ 0xff }.round.round.round
  mixed.v0 ^^^ mixed.v1 ^^^ mixed.v2 ^^^ mixed.v3

end SipState

def wordOf (bytes : List UInt8) : UInt64 := UInt64.ofNat (Wire.ofLittleEndian bytes)

/-- Takes in all words of eight bytes; the last word holds the bytes left over
    and, on top, the low byte of the message length. -/
def absorbAll (s : SipState) (length : Nat) : List UInt8 → SipState
  | b0 :: b1 :: b2 :: b3 :: b4 :: b5 :: b6 :: b7 :: rest =>
    absorbAll (s.absorb (wordOf [b0, b1, b2, b3, b4, b5, b6, b7])) length rest
  | left => s.absorb (wordOf left ||| (UInt64.ofNat (length % 256) <<< 56))

/-- The hash of a message under a key of two words. -/
def sip13 (key0 key1 : UInt64) (message : List UInt8) : UInt64 :=
  (absorbAll (.init key0 key1) message.length message).finish

end PerceptronMesh.Hash
