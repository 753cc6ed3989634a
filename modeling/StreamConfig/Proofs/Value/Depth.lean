import StreamConfig.Value.Basic

/-! # Depth of parts

What stands directly in an array or an object is less deep than the array or the object. Walks that
go down one level at a time end for this reason.
-/

namespace StreamConfig.Value

theorem depth_le_itemsDepth {items : List Value} {v : Value} (h : v ∈ items) :
    v.depth ≤ itemsDepth items := by
  induction items with
  | nil => cases h
  | cons w rest ih =>
    simp only [itemsDepth]
    rcases List.mem_cons.1 h with rfl | h
    · omega
    · have := ih h
      omega

theorem depth_le_entriesDepth {es : Entries} {e : String × Value} (h : e ∈ es) :
    e.2.depth ≤ entriesDepth es := by
  induction es with
  | nil => cases h
  | cons w rest ih =>
    simp only [entriesDepth]
    rcases List.mem_cons.1 h with rfl | h
    · omega
    · have := ih h
      omega

/-- The items of an array are less deep than the array. -/
theorem depth_lt_of_mem_array {items : List Value} {v : Value} (h : v ∈ items) :
    v.depth < (Value.array items).depth := by
  have := depth_le_itemsDepth h
  simp only [depth]
  omega

/-- The values in an object are less deep than the object. -/
theorem depth_lt_of_mem_object {es : Entries} {e : String × Value} (h : e ∈ es) :
    e.2.depth < (Value.object es).depth := by
  have := depth_le_entriesDepth h
  simp only [depth]
  omega

end StreamConfig.Value
