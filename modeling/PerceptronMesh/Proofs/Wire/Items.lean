import Mathlib.Data.List.Range
import PerceptronMesh.Wire.Field

/-!
Tables of items, row after row, and the bytes of one item of a payload whose items are all of
one width.
-/

namespace PerceptronMesh

section Rows

variable {α : Type}

/-- Rows of equal length laid one after another. -/
theorem flatMap_rows (f : Nat → α) (rows columns : Nat) :
    ((List.range rows).flatMap fun r => (List.range columns).map fun c => f (r * columns + c)) =
      (List.range (rows * columns)).map f := by
  induction rows with
  | zero => simp
  | succ rows ih =>
    rw [List.range_succ, List.flatMap_append, ih, Nat.succ_mul, List.range_add, List.map_append, List.map_map]
    simp [Function.comp_def]

/-- Position of a row's item among those of all rows. -/
theorem row_index_lt {row rows column columns : Nat} (hrow : row < rows) (hcolumn : column < columns) :
    row * columns + column < rows * columns :=
  calc row * columns + column < row * columns + columns := Nat.add_lt_add_left hcolumn _
    _ = (row + 1) * columns := (Nat.succ_mul _ _).symm
    _ ≤ rows * columns := Nat.mul_le_mul_right _ hrow

/-- Whole rows end within what is divided into them. -/
theorem row_end_le {size row columns : Nat} (hrow : row < size / columns) : row * columns + columns ≤ size :=
  calc row * columns + columns = (row + 1) * columns := (Nat.succ_mul _ _).symm
    _ ≤ size / columns * columns := Nat.mul_le_mul_right _ hrow
    _ ≤ size := Nat.div_mul_le_self _ _

theorem row_index_div {row column columns : Nat} (hcolumn : column < columns) :
    (row * columns + column) / columns = row := by
  rw [Nat.add_comm, Nat.add_mul_div_right _ _ (Nat.zero_lt_of_lt hcolumn), Nat.div_eq_of_lt hcolumn, Nat.zero_add]

theorem row_index_mod {row column columns : Nat} (hcolumn : column < columns) :
    (row * columns + column) % columns = column := by
  rw [Nat.add_comm, Nat.add_mul_mod_self_right, Nat.mod_eq_of_lt hcolumn]

/-- An item of a table is found by its row and column. -/
theorem getElem?_rows {f : Nat → Nat → α} {row rows column columns : Nat} (hrow : row < rows)
    (hcolumn : column < columns) :
    ((List.range rows).flatMap fun r => (List.range columns).map (f r))[row * columns + column]? =
      some (f row column) := by
  have htable : ((List.range rows).flatMap fun r => (List.range columns).map (f r)) =
      (List.range (rows * columns)).map fun i => f (i / columns) (i % columns) := by
    rw [← flatMap_rows]
    refine List.flatMap_congr fun r _ => List.map_congr_left fun c hc => ?_
    rw [row_index_div (List.mem_range.1 hc), row_index_mod (List.mem_range.1 hc)]
  rw [htable, List.getElem?_map, List.getElem?_range (row_index_lt hrow hcolumn), Option.map_some,
    row_index_div hcolumn, row_index_mod hcolumn]

theorem length_rows (f : Nat → Nat → α) (rows columns : Nat) :
    ((List.range rows).flatMap fun r => (List.range columns).map (f r)).length = rows * columns := by
  simp [List.length_flatMap]

end Rows

namespace Wire

/-- The bytes of one item of a payload whose items are `width` bytes wide. -/
def item (data : List UInt8) (width index : Nat) : List UInt8 := (data.drop (index * width)).take width

/-- The items of a payload make up its front. -/
theorem flatMap_item (data : List UInt8) (width count : Nat) :
    (List.range count).flatMap (item data width) = data.take (count * width) := by
  induction count with
  | zero => simp
  | succ count ih =>
    rw [List.range_succ, List.flatMap_append, ih, List.flatMap_singleton, item, Nat.succ_mul, List.take_add]

section Items

variable {α : Type} {bytes : α → List UInt8} {items : List α} {width : Nat}
  (hwidth : ∀ a ∈ items, (bytes a).length = width)
include hwidth

theorem length_flatMap_of_width : (items.flatMap bytes).length = items.length * width := by
  induction items with
  | nil => simp
  | cons first rest ih =>
    rw [List.flatMap_cons, List.length_append, hwidth first List.mem_cons_self,
      ih fun a ha => hwidth a (List.mem_cons_of_mem _ ha), List.length_cons, Nat.succ_mul, Nat.add_comm]

theorem item_flatMap {index : Nat} {a : α} (ha : items[index]? = some a) :
    item (items.flatMap bytes) width index = bytes a := by
  induction items generalizing index with
  | nil => simp at ha
  | cons first rest ih =>
    have hfirst : (bytes first).length = width := hwidth first List.mem_cons_self
    unfold item at ih ⊢
    rw [List.flatMap_cons]
    cases index with
    | zero =>
      cases ha
      rw [Nat.zero_mul, List.drop_zero, List.take_left' hfirst]
    | succ index =>
      rw [Nat.succ_mul, Nat.add_comm, ← List.drop_drop, List.drop_left' hfirst]
      exact ih (fun other hother => hwidth other (List.mem_cons_of_mem _ hother)) ha

end Items

variable {fields : List Field} {width : Nat} (hwidth : ∀ field ∈ fields, field.width = width)
include hwidth

theorem length_encode_of_width : (encode fields).length = fields.length * width :=
  length_flatMap_of_width fun field hfield => (Field.length_bytes field).trans (hwidth field hfield)

theorem item_encode {index : Nat} {field : Field} (hfield : fields[index]? = some field) :
    item (encode fields) width index = field.bytes :=
  item_flatMap (fun field hfield => (Field.length_bytes field).trans (hwidth field hfield)) hfield

end Wire

end PerceptronMesh
