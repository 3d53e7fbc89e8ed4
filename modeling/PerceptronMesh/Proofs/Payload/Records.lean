import PerceptronMesh.Network.Basic
import PerceptronMesh.Proofs.Payload.Core
import PerceptronMesh.Proofs.Wire.Reader

/-!
Records of a fixed layout. The fields of a record are always of the same kinds, one after another, and no
two records have the same fields. So a record's bytes are as many as its layout says, and they can be read
as one record only.
-/

namespace PerceptronMesh

open Wire Fixed

namespace Wire

theorem Field.flag_inj {a b : Bool} : Field.flag a = Field.flag b ↔ a = b := by
  cases a <;> cases b <;> simp [flag]

/-- Records whose fields are of the given kinds, and that are told apart by their fields. -/
structure Layout {α : Type} (fields : α → List Field) (kinds : List Kind) : Prop where
  ofKinds : ∀ record, OfKinds (fields record) kinds
  fields_inj : ∀ {a b}, fields a = fields b → a = b

/-- Records that are written in so many bytes and are told apart by them. -/
structure Distinct {α : Type} (bytes : α → List UInt8) (size : Nat) : Prop where
  length_bytes : ∀ record, (bytes record).length = size
  injective : Function.Injective bytes

/-- The same kinds are read from the same bytes. -/
theorem OfKinds.eq_of_encode_eq {xs ys : List Field} {kinds : List Kind} (hxs : OfKinds xs kinds)
    (hys : OfKinds ys kinds) (h : encode xs = encode ys) : xs = ys := by
  have hread := fieldsInPlace_encode hxs 0 []
  rw [h, fieldsInPlace_encode hys 0 []] at hread
  exact (EStateM.Result.ok.inj hread).1.symm

theorem Layout.distinct {α : Type} {fields : α → List Field} {kinds : List Kind} {size : Nat}
    (h : Layout fields kinds) (hsize : ∀ record, (encode (fields record)).length = size) :
    Distinct (fun record => encode (fields record)) size where
  length_bytes := hsize
  injective a b hbytes := h.fields_inj ((h.ofKinds a).eq_of_encode_eq (h.ofKinds b) hbytes)

end Wire

section Fields

/-- A word for each category, in an order that leaves none out. -/
theorem categoryFields_inj {order : List Category} (horder : ∀ c, c ∈ order) {a b : CategoryWords}
    (h : (order.map fun c => Field.u32 (a c)) = order.map fun c => Field.u32 (b c)) : a = b := by
  funext c
  exact Field.u32.inj (List.map_inj_left.1 h c (horder c))

theorem codeFields_inj {n : Nat} {xs ys : Vector UInt8 n}
    (h : codeFields xs.toList = codeFields ys.toList) : xs = ys := by
  have hword : Function.Injective fun code : UInt8 => Field.u32 code.toUInt32 :=
    fun _ _ hcode => UInt8.toUInt32_inj.1 (Field.u32.inj hcode)
  exact Vector.toList_inj.1 (List.map_injective_iff.2 hword h)

theorem ofKinds_codeFields (codes : List UInt8) :
    OfKinds (codeFields codes) (List.replicate codes.length .u32) := by
  induction codes with
  | nil => exact .nil
  | cons code rest ih => exact .cons rfl ih

/-- Codes between other fields. -/
theorem ofKinds_codes_between {n : Nat} {front back : List Field} {kinds others : List Kind}
    (codes : Vector UInt8 n) (hfront : OfKinds front kinds) (hback : OfKinds back others) :
    OfKinds (front ++ codeFields codes.toList ++ back) (kinds ++ List.replicate n .u32 ++ others) := by
  have hcodes := ofKinds_codeFields codes.toList
  rw [Vector.length_toList] at hcodes
  exact List.rel_append (List.rel_append hfront hcodes) hback

theorem codes_between_inj {n : Nat} {xs ys : Vector UInt8 n} {front front' back back' : List Field}
    (h : front ++ codeFields xs.toList ++ back = front' ++ codeFields ys.toList ++ back')
    (hlength : front.length = front'.length) : front = front' ∧ xs = ys ∧ back = back' := by
  have hcodes : (codeFields xs.toList).length = (codeFields ys.toList).length := by simp [codeFields]
  obtain ⟨hleft, hback⟩ := List.append_inj h (by rw [List.length_append, List.length_append, hlength, hcodes])
  obtain ⟨hfront, hmiddle⟩ := List.append_inj hleft hlength
  exact ⟨hfront, codeFields_inj hmiddle, hback⟩

theorem NetworkKind.code_inj {a b : NetworkKind} : a.code = b.code ↔ a = b := by
  cases a <;> cases b <;> decide

theorem StageMode.code_inj {a b : StageMode} : a.code = b.code ↔ a = b := by
  cases a <;> cases b <;> decide

theorem UpdateFunction.code_inj {a b : UpdateFunction} : a.code = b.code ↔ a = b := by
  cases a <;> cases b <;> decide

end Fields

namespace WeightCore

def kinds : List Kind :=
  [.u32, .u32, .fixed .activation, .fixed .shortFpreal, .fixed .shortFpreal, .fixed .shortFpreal, .pad 2] ++
    List.replicate 5 .u32

theorem layout : Layout fields kinds where
  ofKinds record := by
    repeat constructor
  fields_inj {a b} h := by
    obtain ⟨hfront, hexpected⟩ := List.append_inj h rfl
    have hwords := categoryFields_inj Category.mem_all hexpected
    obtain ⟨⟩ := a
    obtain ⟨⟩ := b
    simp_all

end WeightCore

namespace SumCore

def kinds : List Kind := [.u32, .u32, .u32, .u32, .u32, .u32, .u8, .u8, .u8, .pad 1]

theorem layout : Layout fields kinds where
  ofKinds record := by
    repeat constructor
  fields_inj {a b} h := by
    obtain ⟨⟩ := a
    obtain ⟨⟩ := b
    simpa [fields, Field.flag_inj] using h

end SumCore

namespace InputCore

def kinds : List Kind :=
  [.u8, .u8, .pad 2, .u32, .u32] ++ List.replicate maxInputFunctions .u32 ++
    [.u8, .pad 3, .fixed .fpreal, .fixed .fpreal, .fixed .fpreal, .fixed .activation]

theorem layout : Layout fields kinds where
  ofKinds record := by
    apply ofKinds_codes_between <;> repeat constructor
  fields_inj {a b} h := by
    obtain ⟨hfront, hcodes, hback⟩ := codes_between_inj h rfl
    obtain ⟨⟩ := a
    obtain ⟨⟩ := b
    simp_all [Field.flag_inj]

end InputCore

namespace ThresholdCore

def kinds : List Kind :=
  [.u8, .u8, .pad 2, .u32, .u32, .u8, .u8, .u8, .pad 1, .u32, .u8, .u8, .pad 2, .fixed .fpreal, .u32] ++
    List.replicate maxOutputFunctions .u32 ++
    [.fixed .fpreal, .fixed .activation, .fixed .error, .fixed .error, .u8, .u8, .u8, .u8, .u32]

theorem layout : Layout fields kinds where
  ofKinds record := by
    apply ofKinds_codes_between <;> repeat constructor
  fields_inj {a b} h := by
    obtain ⟨hfront, hcodes, hback⟩ := codes_between_inj h rfl
    obtain ⟨⟩ := a
    obtain ⟨⟩ := b
    simp_all [Field.flag_inj]

end ThresholdCore

namespace NetworkRecord

def kinds : List Kind := [.u8, .pad 3, .u32, .u32, .u32]

theorem layout : Layout fields kinds where
  ofKinds record := by
    repeat constructor
  fields_inj {a b} h := by
    obtain ⟨⟩ := a
    obtain ⟨⟩ := b
    simpa [fields, NetworkKind.code_inj] using h

end NetworkRecord

namespace RoutingKeys

def kinds : List Kind := List.replicate 5 .u32

theorem layout : Layout fields kinds where
  ofKinds record := by
    repeat constructor
  fields_inj {a b} h := by
    have horder (c : Category) : c ∈ Category.routingOrder := List.mem_of_getElem? c.routingOrder_getElem?
    obtain ⟨⟩ := a
    obtain ⟨⟩ := b
    rw [mk.injEq]
    apply categoryFields_inj horder
    simpa [fields, inOrder, Function.comp_def] using h

end RoutingKeys

namespace StageDescriptor

def kinds : List Kind := [.u32, .u8, .u8, .u8, .pad 1, .u32, .u32]

theorem layout : Layout fields kinds where
  ofKinds record := by
    repeat constructor
  fields_inj {a b} h := by
    obtain ⟨⟩ := a
    obtain ⟨⟩ := b
    simpa [fields, Field.flag_inj, StageMode.code_inj, UpdateFunction.code_inj] using h

end StageDescriptor

namespace SetRecord

def kinds : List Kind := [.u32, .fixed .fpreal, .fixed .fpreal, .fixed .fpreal]

theorem layout : Layout fields kinds where
  ofKinds record := by
    repeat constructor
  fields_inj {a b} h := by
    obtain ⟨⟩ := a
    obtain ⟨⟩ := b
    simpa [fields] using h

end SetRecord

namespace ExampleRecord

def kinds : List Kind := [.u32, .u32, .u32, .fixed .fpreal]

theorem layout : Layout fields kinds where
  ofKinds record := by
    repeat constructor
  fields_inj {a b} h := by
    obtain ⟨⟩ := a
    obtain ⟨⟩ := b
    simpa [fields] using h

end ExampleRecord

namespace EventRecord

def kinds : List Kind := [.fixed .fpreal, .fixed .fpreal, .fixed .fpreal, .u32]

theorem layout : Layout fields kinds where
  ofKinds record := by
    repeat constructor
  fields_inj {a b} h := by
    obtain ⟨⟩ := a
    obtain ⟨⟩ := b
    simpa [fields] using h

end EventRecord

namespace TestResults

def kinds : List Kind := [.u32, .u32, .u32, .u32]

theorem layout : Layout fields kinds where
  ofKinds record := by
    repeat constructor
  fields_inj {a b} h := by
    obtain ⟨⟩ := a
    obtain ⟨⟩ := b
    simpa [fields] using h

end TestResults

namespace TickRecord

def kinds : List Kind := [.u32, .u32, .u32, .u32]

theorem layout : Layout fields kinds where
  ofKinds record := by
    repeat constructor
  fields_inj {a b} h := by
    obtain ⟨⟩ := a
    obtain ⟨⟩ := b
    simpa [fields] using h

end TickRecord

end PerceptronMesh
