/-
  Finite maps kept as lists of pairs, each key once.

  Key definitions include:
    * `Assoc.insert`
-/

namespace ServiceCalls

namespace Assoc

variable {α : Type}

/- Bind a key to a value, in place if it was bound before. -/
def insert (key : String) (value : α) :
    List (String × α) → List (String × α)
  | [] => [(key, value)]
  | (k, v) :: rest =>
      if k = key then (key, value) :: rest
      else (k, v) :: insert key value rest

theorem lookup_cons_ne
    {k k₀ : String}
    (h : k ≠ k₀)
    (v : α)
    (m : List (String × α)) :
    List.lookup k ((k₀, v) :: m) = m.lookup k := by
  have hb : (k == k₀) = false := beq_eq_false_iff_ne.2 h
  simp only [List.lookup_cons, hb]

theorem lookup_insert
    (key k : String)
    (value : α)
    (m : List (String × α)) :
    (insert key value m).lookup k =
      if k = key then some value else m.lookup k := by
  induction m with
  | nil =>
      by_cases h : k = key
      · simp [insert, h]
      · simp [insert, lookup_cons_ne h, h]
  | cons entry rest ih =>
      obtain ⟨k₀, v₀⟩ := entry
      by_cases h₀ : k₀ = key
      · subst h₀
        by_cases h : k = k₀
        · simp [insert, h]
        · simp [insert, lookup_cons_ne h, h]
      · by_cases h : k = k₀
        · subst h
          simp [insert, h₀]
        · simp [insert, h₀, lookup_cons_ne h, ih]

/- A new key is bound behind those there are. -/
theorem insert_of_not_mem
    {key : String}
    {m : List (String × α)}
    (h : key ∉ m.map Prod.fst)
    (value : α) :
    insert key value m = m ++ [(key, value)] := by
  induction m with
  | nil => rfl
  | cons entry rest ih =>
      rw [List.map_cons, List.mem_cons, not_or] at h
      rw [insert, if_neg (Ne.symm h.1), ih h.2]
      rfl

end Assoc

end ServiceCalls
