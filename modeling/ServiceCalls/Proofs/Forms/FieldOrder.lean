import Mathlib.Data.List.Flatten
import ServiceCalls.Proofs.Json.Fields

/-
  Form fields of entries that were put in order.

  Every entry has the fields of its texts.  When entries are
  put in the order of their names, and each name is kept
  once, the fields are the same exactly if every entry that
  has fields comes before those of greater names only.

  Key definitions include:
    * `Forms.fields`
    * `Forms.KeepsPlace`

  Main declarations:
    * `Forms.fields_sortFields_iff`
-/

namespace ServiceCalls

namespace Forms

open Json (InOrder valuesOf sortFields insertField)

variable {α : Type}
variable (texts : α → List String)

------------------------------------------------------------
-- Fields of Entries
------------------------------------------------------------

/- The fields of entries, in order. -/
def fields (entries : List (String × α)) :
    List (String × String) :=
  entries.flatMap fun entry =>
    (texts entry.2).map fun text => (entry.1, text)

theorem fields_append
    (before after : List (String × α)) :
    fields texts (before ++ after) =
      fields texts before ++ fields texts after :=
  List.flatMap_append

theorem fields_cons
    (entry : String × α)
    (rest : List (String × α)) :
    fields texts (entry :: rest) =
      fields texts [entry] ++ fields texts rest :=
  fields_append texts [entry] rest

/- An entry without texts has no fields. -/
theorem fields_silent
    {entry : String × α}
    (h : texts entry.2 = []) :
    fields texts [entry] = [] := by
  unfold fields
  rw [List.flatMap_singleton, h]
  rfl

theorem fields_all_silent
    {entries : List (String × α)}
    (h : ∀ entry ∈ entries, texts entry.2 = []) :
    fields texts entries = [] := by
  unfold fields
  rw [List.flatMap_eq_nil_iff]
  intro entry hEntry
  rw [h entry hEntry]
  rfl

/- The entry before another is neither lost nor moved. -/
def KeepsPlace (a b : String × α) : Prop :=
  texts a.2 = [] ∨
    a.1 ≠ b.1 ∧ (texts b.2 = [] ∨ a.1 < b.1)

------------------------------------------------------------
-- Entries That Keep Their Places
------------------------------------------------------------

/- An entry may change places with those without fields. -/
theorem fields_comm
    {entry : String × α}
    {entries : List (String × α)}
    (h :
      texts entry.2 = [] ∨
        ∀ other ∈ entries, texts other.2 = []) :
    fields texts [entry] ++ fields texts entries =
      fields texts entries ++ fields texts [entry] := by
  rcases h with hEntry | hOthers
  · rw [fields_silent texts hEntry, List.nil_append,
      List.append_nil]
  · rw [fields_all_silent texts hOthers, List.nil_append,
      List.append_nil]

/- An entry that is put behind greater names is silent. -/
theorem silent_of_behind
    {entry : String × α}
    {entries : List (String × α)}
    (hKeeps :
      ∀ other ∈ entries, KeepsPlace texts other entry)
    (hGreater : ∀ other ∈ entries, entry.1 < other.1) :
    texts entry.2 = [] ∨
      ∀ other ∈ entries, texts other.2 = [] := by
  by_cases hSilent : texts entry.2 = []
  · exact .inl hSilent
  · right
    intro other hOther
    rcases hKeeps other hOther with hNone | ⟨_, hEntry⟩
    · exact hNone
    · rcases hEntry with hNone | hLess
      · exact absurd hNone hSilent
      · exact absurd hLess
          (lt_asymm (hGreater other hOther))

/- An entry that keeps its place is put behind the others. -/
theorem fields_insertField
    {entry : String × α}
    {entries : List (String × α)}
    (hOrder : InOrder entries)
    (hKeeps :
      ∀ other ∈ entries, KeepsPlace texts other entry) :
    fields texts (insertField entry.1 entry.2 entries) =
      fields texts entries ++ fields texts [entry] := by
  induction entries with
  | nil => rfl
  | cons first rest ih =>
      have hFirst := hKeeps first List.mem_cons_self
      have hRest :
          ∀ other ∈ rest, KeepsPlace texts other entry :=
        fun other hOther =>
          hKeeps other (List.mem_cons_of_mem _ hOther)
      unfold InOrder at hOrder ih
      rw [List.pairwise_cons] at hOrder
      unfold insertField
      split
      · next hBefore =>
          have hGreater :
              ∀ other ∈ first :: rest,
                entry.1 < other.1 := by
            intro other hOther
            rcases List.mem_cons.mp hOther with
              hSame | hLater
            · subst hSame
              exact hBefore
            · exact lt_trans hBefore
                (hOrder.1 other hLater)
          have hComm := fields_comm texts
            (silent_of_behind texts hKeeps hGreater)
          rw [fields_cons]
          exact hComm
      split
      · next hSame =>
          have hSilent : texts first.2 = [] := by
            rcases hFirst with hNone | ⟨hOther, _⟩
            · exact hNone
            · exact absurd hSame.symm hOther
          have hGreater :
              ∀ other ∈ rest, entry.1 < other.1 := by
            intro other hOther
            rw [hSame]
            exact hOrder.1 other hOther
          rw [fields_cons, fields_cons texts first rest,
            fields_silent texts hSilent, List.nil_append]
          exact fields_comm texts
            (silent_of_behind texts hRest hGreater)
      · rw [fields_cons, fields_cons texts first rest,
          ih hOrder.2 hRest, List.append_assoc]

theorem fields_sortFields
    {entries : List (String × α)}
    (h : entries.Pairwise (KeepsPlace texts)) :
    fields texts (sortFields entries) =
      fields texts entries := by
  induction entries using List.reverseRecOn with
  | nil => rfl
  | append_singleton before last ih =>
      rw [List.pairwise_append] at h
      have hKeeps :
          ∀ other ∈ sortFields before,
            KeepsPlace texts other last := by
        intro other hOther
        exact h.2.2 other
          (Json.mem_of_mem_sortFields hOther) last
          (List.mem_singleton_self last)
      rw [Json.sortFields_snoc,
        fields_insertField texts
          (Json.inOrder_sortFields before) hKeeps,
        ih h.1, fields_append]

------------------------------------------------------------
-- Fields That Are the Same
------------------------------------------------------------

/- The fields of one name come from its values. -/
theorem fields_named
    (name : String)
    (entries : List (String × α)) :
    ((fields texts entries).filter (·.1 == name)).map
        (·.2) =
      (valuesOf name entries).flatMap texts := by
  induction entries with
  | nil => rfl
  | cons first rest ih =>
      rcases first with ⟨firstName, value⟩
      rw [fields_cons, List.filter_append,
        List.map_append, ih, Json.valuesOf_cons]
      unfold fields
      rw [List.flatMap_singleton, List.filter_map]
      by_cases hName : firstName = name
      · subst hName
        simp
      · simp [hName]

/- The names of fields in order are in order. -/
theorem fields_inOrder
    {entries : List (String × α)}
    (h : InOrder entries) :
    (fields texts entries).Pairwise
      fun a b => a.1 ≤ b.1 := by
  unfold InOrder at h
  unfold fields
  rw [List.pairwise_flatMap]
  constructor
  · intro entry _
    rw [List.pairwise_map]
    exact List.pairwise_of_forall
      fun _ _ => le_refl entry.1
  · apply h.imp
    intro a b hLess x hX y hY
    rcases List.mem_map.mp hX with ⟨_, _, hX⟩
    rcases List.mem_map.mp hY with ⟨_, _, hY⟩
    subst hX
    subst hY
    exact le_of_lt hLess

/- Fields that are the same belong to the last values. -/
theorem silent_of_fields_eq
    {entries : List (String × α)}
    (h :
      fields texts (sortFields entries) =
        fields texts entries)
    (name : String) :
    ∀ value ∈ (valuesOf name entries).dropLast,
      texts value = [] := by
  have hNamed := fields_named texts name
    (sortFields entries)
  rw [h, fields_named, Json.valuesOf_sortFields] at hNamed
  cases hLast : (valuesOf name entries).getLast? with
  | none =>
      rw [List.getLast?_eq_none_iff] at hLast
      rw [hLast]
      intro value hValue
      cases hValue
  | some last =>
      have hSplit :=
        List.dropLast_append_getLast? last hLast
      rw [hLast, Option.toList_some, ← hSplit,
        List.flatMap_append] at hNamed
      have hNone :
          (valuesOf name entries).dropLast.flatMap texts =
            [] :=
        List.append_left_eq_self.mp hNamed
      rw [List.flatMap_eq_nil_iff] at hNone
      exact hNone

/- An entry with fields has a name of its own. -/
theorem name_ne_of_fields_eq
    {entries : List (String × α)}
    (h :
      fields texts (sortFields entries) =
        fields texts entries)
    {a b : String × α}
    (hPair : List.Sublist [a, b] entries)
    (hTexts : texts a.2 ≠ []) :
    a.1 ≠ b.1 := by
  rcases a with ⟨name, value⟩
  rcases b with ⟨otherName, other⟩
  intro hName
  have hValues :
      List.Sublist (valuesOf name
          [(name, value), (otherName, other)])
        (valuesOf name entries) :=
    (hPair.filter _).map _
  rw [Json.valuesOf_cons, if_pos rfl, Json.valuesOf_cons,
    if_pos hName.symm] at hValues
  rcases List.cons_sublist_iff.mp hValues with
    ⟨before, after, hSplit, hBefore, hAfter⟩
  have hLater : after ≠ [] := by
    intro hNone
    rw [hNone] at hAfter
    cases hAfter
  have hEarlier :
      value ∈ (valuesOf name entries).dropLast := by
    rw [hSplit, List.dropLast_append_of_ne_nil hLater]
    exact List.mem_append_left _ hBefore
  exact hTexts
    (silent_of_fields_eq texts h name value hEarlier)

/- Entries with fields are in the order of their names. -/
theorem name_le_of_fields_eq
    {entries : List (String × α)}
    (h :
      fields texts (sortFields entries) =
        fields texts entries)
    {a b : String × α}
    (hPair : List.Sublist [a, b] entries)
    (hFirst : texts a.2 ≠ [])
    (hSecond : texts b.2 ≠ []) :
    a.1 ≤ b.1 := by
  have hOrder := fields_inOrder texts
    (Json.inOrder_sortFields entries)
  rw [h] at hOrder
  have hFields :
      List.Sublist (fields texts [a] ++ fields texts [b])
        (fields texts entries) := by
    rw [← fields_append]
    exact hPair.flatMap _
  have hBoth := hOrder.sublist hFields
  rw [List.pairwise_append] at hBoth
  rcases List.exists_mem_of_ne_nil _ hFirst with
    ⟨x, hX⟩
  rcases List.exists_mem_of_ne_nil _ hSecond with
    ⟨y, hY⟩
  apply hBoth.2.2 (a.1, x) _ (b.1, y)
  · unfold fields
    rw [List.flatMap_singleton]
    exact List.mem_map_of_mem hY
  · unfold fields
    rw [List.flatMap_singleton]
    exact List.mem_map_of_mem hX

/- Fields stay exactly if all entries keep their places. -/
theorem fields_sortFields_iff
    (entries : List (String × α)) :
    fields texts (sortFields entries) =
        fields texts entries ↔
      entries.Pairwise (KeepsPlace texts) := by
  constructor
  · intro hSame
    rw [List.pairwise_iff_forall_sublist]
    intro a b hPair
    by_cases hFirst : texts a.2 = []
    · exact .inl hFirst
    · have hName :=
        name_ne_of_fields_eq texts hSame hPair hFirst
      refine .inr ⟨hName, ?_⟩
      by_cases hSecond : texts b.2 = []
      · exact .inl hSecond
      · right
        apply lt_of_le_of_ne _ hName
        exact name_le_of_fields_eq texts hSame hPair
          hFirst hSecond
  · exact fields_sortFields texts

end Forms

end ServiceCalls
