import Mathlib.Data.List.Induction
import Mathlib.Data.String.Basic
import ServiceCalls.Json.Value

/-
  The fields of an object.

  Fields that are put in place one after the other are in
  the order of their keys, and of the values that a key had
  only the last is left.

  Key definitions include:
    * `Json.InOrder`
    * `Json.valuesOf`

  Main declarations:
    * `Json.inOrder_sortFields`
    * `Json.valuesOf_sortFields`
    * `Json.sortFields_map`
-/

namespace ServiceCalls

namespace Json

variable {α β : Type}

------------------------------------------------------------
-- Single Fields
------------------------------------------------------------

/- Fields in the order of their keys, each key once. -/
def InOrder (fields : List (String × α)) : Prop :=
  fields.Pairwise fun a b => a.1 < b.1

/- The values of a key. -/
def valuesOf
    (key : String)
    (fields : List (String × α)) :
    List α :=
  (fields.filter (·.1 == key)).map (·.2)

theorem valuesOf_append
    (key : String)
    (before after : List (String × α)) :
    valuesOf key (before ++ after) =
      valuesOf key before ++ valuesOf key after := by
  unfold valuesOf
  rw [List.filter_append, List.map_append]

theorem valuesOf_cons
    (key k : String)
    (value : α)
    (rest : List (String × α)) :
    valuesOf key ((k, value) :: rest) =
      if k = key then value :: valuesOf key rest
      else valuesOf key rest := by
  unfold valuesOf
  by_cases hKey : k = key
  · subst hKey
    simp
  · simp [hKey]

/- Keys behind a key in order are others. -/
theorem valuesOf_of_lt
    {key : String}
    {fields : List (String × α)}
    (h : ∀ field ∈ fields, key < field.1) :
    valuesOf key fields = [] := by
  unfold valuesOf
  rw [List.map_eq_nil_iff, List.filter_eq_nil_iff]
  intro field hField hSame
  have hLess := h field hField
  rw [eq_of_beq hSame] at hLess
  exact absurd hLess (lt_irrefl key)

theorem mem_insertField
    {key : String}
    {value : α}
    {fields : List (String × α)}
    {field : String × α}
    (h : field ∈ insertField key value fields) :
    field = (key, value) ∨ field ∈ fields := by
  induction fields with
  | nil =>
      rw [insertField, List.mem_singleton] at h
      exact .inl h
  | cons first rest ih =>
      unfold insertField at h
      split at h
      · exact List.mem_cons.mp h
      split at h
      · rcases List.mem_cons.mp h with hNew | hRest
        · exact .inl hNew
        · exact .inr (List.mem_cons_of_mem _ hRest)
      · rcases List.mem_cons.mp h with hFirst | hLater
        · subst hFirst
          exact .inr List.mem_cons_self
        · rcases ih hLater with hNew | hRest
          · exact .inl hNew
          · exact .inr (List.mem_cons_of_mem _ hRest)

theorem inOrder_insertField
    (key : String)
    (value : α)
    {fields : List (String × α)}
    (h : InOrder fields) :
    InOrder (insertField key value fields) := by
  unfold InOrder at h ⊢
  induction fields with
  | nil => exact List.pairwise_singleton _ _
  | cons first rest ih =>
      rw [List.pairwise_cons] at h
      unfold insertField
      split
      · next hBefore =>
          rw [List.pairwise_cons, List.pairwise_cons]
          refine ⟨?_, h⟩
          intro field hField
          rcases List.mem_cons.mp hField with
            hFirst | hRest
          · subst hFirst
            exact hBefore
          · exact lt_trans hBefore (h.1 field hRest)
      split
      · next hSame =>
          subst hSame
          exact List.pairwise_cons.mpr h
      · next hNotBefore hOther =>
          rw [List.pairwise_cons]
          refine ⟨?_, ih h.2⟩
          intro field hField
          rcases mem_insertField hField with hNew | hRest
          · subst hNew
            exact lt_of_le_of_ne (not_lt.mp hNotBefore)
              (Ne.symm hOther)
          · exact h.1 field hRest

/- A field put in place is the only one of its key. -/
theorem valuesOf_insertField
    (key k : String)
    (value : α)
    {fields : List (String × α)}
    (h : InOrder fields) :
    valuesOf key (insertField k value fields) =
      if k = key then [value] else valuesOf key fields := by
  induction fields with
  | nil => exact valuesOf_cons key k value []
  | cons first rest ih =>
      rcases first with ⟨firstKey, old⟩
      unfold InOrder at h ih
      rw [List.pairwise_cons] at h
      have hLater := valuesOf_of_lt h.1
      unfold insertField
      split
      · next hBefore =>
          rw [valuesOf_cons]
          split
          · next hKey =>
              subst hKey
              have hBehind :
                  ∀ field ∈ (firstKey, old) :: rest,
                    k < field.1 := by
                intro field hField
                rcases List.mem_cons.mp hField with
                  hFirst | hRest
                · subst hFirst
                  exact hBefore
                · exact lt_trans hBefore
                    (h.1 field hRest)
              rw [valuesOf_of_lt hBehind]
          · rfl
      split
      · next hSame =>
          subst hSame
          rw [valuesOf_cons, valuesOf_cons]
          split
          · next hKey =>
              subst hKey
              rw [hLater]
          · rfl
      · next hOther =>
          rw [valuesOf_cons, valuesOf_cons, ih h.2]
          by_cases hKey : k = key
          · subst hKey
            rw [if_pos rfl, if_neg (Ne.symm hOther),
              if_pos rfl]
          · rw [if_neg hKey, if_neg hKey]

------------------------------------------------------------
-- All Fields
------------------------------------------------------------

theorem sortFields_snoc
    (fields : List (String × α))
    (field : String × α) :
    sortFields (fields ++ [field]) =
      insertField field.1 field.2 (sortFields fields) := by
  unfold sortFields
  rw [List.foldl_append]
  rfl

theorem mem_of_mem_sortFields
    {fields : List (String × α)}
    {field : String × α}
    (h : field ∈ sortFields fields) :
    field ∈ fields := by
  induction fields using List.reverseRecOn with
  | nil => cases h
  | append_singleton before last ih =>
      rw [sortFields_snoc] at h
      rw [List.mem_append, List.mem_singleton]
      rcases mem_insertField h with hLast | hBefore
      · exact .inr hLast
      · exact .inl (ih hBefore)

theorem inOrder_sortFields (fields : List (String × α)) :
    InOrder (sortFields fields) := by
  induction fields using List.reverseRecOn with
  | nil => exact List.Pairwise.nil
  | append_singleton before last ih =>
      rw [sortFields_snoc]
      exact inOrder_insertField last.1 last.2 ih

/- Only the last value of a key is left. -/
theorem valuesOf_sortFields
    (key : String)
    (fields : List (String × α)) :
    valuesOf key (sortFields fields) =
      (valuesOf key fields).getLast?.toList := by
  induction fields using List.reverseRecOn with
  | nil => rfl
  | append_singleton before last ih =>
      rcases last with ⟨k, value⟩
      rw [sortFields_snoc,
        valuesOf_insertField _ _ _
          (inOrder_sortFields before),
        valuesOf_append, valuesOf_cons]
      by_cases hKey : k = key
      · rw [if_pos hKey, if_pos hKey, List.getLast?_append]
        rfl
      · rw [if_neg hKey, if_neg hKey, ih]
        change _ = (valuesOf key before ++
          []).getLast?.toList
        rw [List.append_nil]

theorem insertField_map
    (f : α → β)
    (key : String)
    (value : α)
    (fields : List (String × α)) :
    insertField key (f value)
        (fields.map fun field => (field.1, f field.2)) =
      (insertField key value fields).map
        fun field => (field.1, f field.2) := by
  induction fields with
  | nil => rfl
  | cons first rest ih =>
      rw [List.map_cons]
      unfold insertField
      split
      · rfl
      split
      · rfl
      · rw [List.map_cons, ih]

/- Values may be changed before fields are put in order. -/
theorem sortFields_map
    (f : α → β)
    (fields : List (String × α)) :
    sortFields
        (fields.map fun field => (field.1, f field.2)) =
      (sortFields fields).map
        fun field => (field.1, f field.2) := by
  induction fields using List.reverseRecOn with
  | nil => rfl
  | append_singleton before last ih =>
      rw [List.map_append, List.map_singleton,
        sortFields_snoc, sortFields_snoc, ih]
      exact insertField_map f last.1 last.2
        (sortFields before)

end Json

end ServiceCalls
