import PerceptronMesh.Graph.Basic
import PerceptronMesh.Hash.Sip

/-!
A checksum that sees a graph's units and edges but not their order.
-/

namespace PerceptronMesh

open Wire

/-- A text followed by a byte that occurs in no text. -/
def textBytes (s : String) : List UInt8 := s.toUTF8.toList ++ [0xff]

namespace Graph

def unitBytes (u : MeshUnit) : List UInt8 :=
  textBytes u.id.text ++ littleEndian 8 u.role.rank ++ littleEndian 4 u.units

def edgeBytes (e : Edge) : List UInt8 :=
  textBytes e.source.text ++ textBytes e.target.text ++ littleEndian 8 e.category.rank ++
    textBytes e.partition ++ littleEndian 4 e.packets.toNat

/-- Whether one unit comes before another: by identifier. -/
def unitBefore (a b : String × MeshUnit) : Bool := a.1 ≤ b.1

/-- Whether one edge comes before another: by source, target and category. -/
def edgeBefore (a b : String × String × Edge) : Bool :=
  if a.1 ≠ b.1 then a.1 < b.1
  else if a.2.1 ≠ b.2.1 then a.2.1 < b.2.1
  else a.2.2.category.rank ≤ b.2.2.category.rank

def sortedUnits (g : Graph) : List MeshUnit :=
  ((g.units.toList.map fun u => (u.id.text, u)).mergeSort unitBefore).map (·.2)

def sortedEdges (g : Graph) : List Edge :=
  ((g.edges.toList.map fun e => (e.source.text, e.target.text, e)).mergeSort edgeBefore).map (·.2.2)

/-- The bytes that are hashed: units, then edges, each in sorted order. -/
def checksumBytes (g : Graph) : List UInt8 :=
  g.sortedUnits.flatMap unitBytes ++ g.sortedEdges.flatMap edgeBytes

def checksum (g : Graph) : UInt64 := Hash.sip13 0 0 g.checksumBytes

end Graph

/-- Hexadecimal digits of a checksum, without leading zeros. -/
def hexText (n : UInt64) : String := String.ofList (Nat.toDigits 16 n.toNat)

/-- Sixteen hexadecimal digits. -/
def checksumText (n : UInt64) : String :=
  let digits := Nat.toDigits 16 n.toNat
  String.ofList (List.replicate (16 - digits.length) '0' ++ digits)

end PerceptronMesh
