/-
  Results of steps that may fail, taken apart.

  Main declarations:
    * `Fallible.map_eq_ok`
    * `Fallible.mapError_eq_ok`
    * `Fallible.bind_eq_ok`
    * `Fallible.eq_ok_of_toOption` and `Fallible.exists_of_isOk`
    * `Fallible.mapM_map_eq_ok`
    * `Fallible.mapM_cons_eq_ok_iff`
    * `Fallible.exists_mapM_ok`
    * `Fallible.failsOnly_bind`, `Fallible.failsOnly_mapM`
      and `Fallible.failsOnly_mapError`
-/

namespace ServiceCalls

namespace Fallible

variable {α β ε ε' : Type}

/- A changed result comes from a result. -/
theorem map_eq_ok
    {f : α → β}
    {result : Except ε α}
    {b : β}
    (h : result.map f = .ok b) :
    ∃ a, result = .ok a ∧ f a = b := by
  cases result with
  | error error => cases h
  | ok a => exact ⟨a, rfl, Except.ok.inj h⟩

/- A result is kept when failures are changed. -/
theorem mapError_eq_ok
    {f : ε → ε'}
    {result : Except ε α}
    {a : α}
    (h : result.mapError f = .ok a) :
    result = .ok a := by
  cases result with
  | error error => cases h
  | ok b =>
      cases h
      rfl

/- Both of two steps succeed when they do together. -/
theorem bind_eq_ok
    {result : Except ε α}
    {next : α → Except ε β}
    {b : β}
    (h : (result >>= next) = .ok b) :
    ∃ a, result = .ok a ∧ next a = .ok b := by
  cases result with
  | error error => cases h
  | ok a => exact ⟨a, rfl, h⟩

/- A result is one that remains without its failures. -/
theorem eq_ok_of_toOption
    {result : Except ε α}
    {a : α}
    (h : result.toOption = some a) :
    result = .ok a := by
  cases result with
  | error error => cases h
  | ok b => exact congrArg Except.ok (Option.some.inj h)

/- What succeeds has a result. -/
theorem exists_of_isOk
    {result : Except ε α}
    (h : result.isOk = true) :
    ∃ a, result = .ok a := by
  cases result with
  | error error => cases h
  | ok a => exact ⟨a, rfl⟩

/- What fails is what has no result. -/
theorem exists_error_iff (result : Except ε α) :
    (∃ error, result = .error error) ↔
      ¬∃ a, result = .ok a := by
  cases result with
  | error error => simp
  | ok a => simp

/- Steps that all succeed succeed one after the other. -/
theorem mapM_map_eq_ok
    {γ : Type}
    {f : β → Except ε γ}
    {g : α → β}
    {value : α → γ}
    {xs : List α}
    (h : ∀ x ∈ xs, f (g x) = .ok (value x)) :
    (xs.map g).mapM f = .ok (xs.map value) := by
  induction xs with
  | nil => rfl
  | cons x rest ih =>
      have hRest := ih fun y hMem =>
        h y (List.mem_cons_of_mem _ hMem)
      rw [List.map_cons, List.mapM_cons,
        h x List.mem_cons_self, hRest]
      rfl

/- A changed result is there when the result is. -/
theorem exists_map_ok
    (f : α → β)
    (result : Except ε α) :
    (∃ b, result.map f = .ok b) ↔ ∃ a, result = .ok a := by
  cases result with
  | error error =>
      constructor
      · rintro ⟨b, hMap⟩
        cases hMap
      · rintro ⟨a, hResult⟩
        cases hResult
  | ok a => exact ⟨fun _ => ⟨a, rfl⟩, fun _ => ⟨f a, rfl⟩⟩

/- The first of some steps succeeds, and so do the others. -/
theorem mapM_cons_eq_ok_iff
    (f : α → Except ε β)
    (x : α)
    (rest : List α)
    (ys : List β) :
    (x :: rest).mapM f = .ok ys ↔
      ∃ y others,
        f x = .ok y ∧ rest.mapM f = .ok others ∧
          ys = y :: others := by
  rw [List.mapM_cons]
  constructor
  · intro hAll
    obtain ⟨y, hFirst, hNext⟩ := bind_eq_ok hAll
    obtain ⟨others, hOthers, hMade⟩ := bind_eq_ok hNext
    exact ⟨y, others, hFirst, hOthers,
      (Except.ok.inj hMade).symm⟩
  · rintro ⟨y, others, hFirst, hOthers, hMade⟩
    rw [hFirst, hOthers, hMade]
    rfl

/- Steps succeed together when each of them does. -/
theorem exists_mapM_ok
    (f : α → Except ε β)
    (xs : List α) :
    (∃ ys, xs.mapM f = .ok ys) ↔
      ∀ x ∈ xs, ∃ y, f x = .ok y := by
  induction xs with
  | nil => exact ⟨fun _ _ hMem => (nomatch hMem),
      fun _ => ⟨[], rfl⟩⟩
  | cons x rest ih =>
      simp only [mapM_cons_eq_ok_iff, List.forall_mem_cons,
        ← ih]
      constructor
      · rintro ⟨_, y, others, hFirst, hOthers, _⟩
        exact ⟨⟨y, hFirst⟩, others, hOthers⟩
      · rintro ⟨⟨y, hFirst⟩, others, hOthers⟩
        exact ⟨y :: others, y, others, hFirst, hOthers, rfl⟩

/- What results show of their origins, they show in order. -/
theorem map_of_mapM
    {γ : Type}
    {f : α → Except ε β}
    {view : β → γ}
    {origin : α → γ}
    (hView : ∀ x y, f x = .ok y → view y = origin x)
    {xs : List α}
    {ys : List β}
    (h : xs.mapM f = .ok ys) :
    ys.map view = xs.map origin := by
  induction xs generalizing ys with
  | nil =>
      cases h
      rfl
  | cons x rest ih =>
      obtain ⟨y, others, hFirst, hOthers, rfl⟩ :=
        (mapM_cons_eq_ok_iff ..).mp h
      rw [List.map_cons, List.map_cons, hView x y hFirst,
        ih hOthers]

theorem length_of_mapM
    {f : α → Except ε β}
    {xs : List α}
    {ys : List β}
    (h : xs.mapM f = .ok ys) :
    ys.length = xs.length := by
  have hSame :
      ys.map (fun _ => ()) = xs.map (fun _ => ()) :=
    map_of_mapM (fun _ _ _ => rfl) h
  simpa using congrArg List.length hSame

/- Every result comes from an origin. -/
theorem exists_of_mem_mapM
    {f : α → Except ε β}
    {xs : List α}
    {ys : List β}
    (h : xs.mapM f = .ok ys)
    {y : β}
    (hMem : y ∈ ys) :
    ∃ x ∈ xs, f x = .ok y := by
  induction xs generalizing ys with
  | nil =>
      cases h
      cases hMem
  | cons x rest ih =>
      obtain ⟨first, others, hFirst, hOthers, rfl⟩ :=
        (mapM_cons_eq_ok_iff ..).mp h
      rcases List.mem_cons.mp hMem with hSame | hLater
      · subst hSame
        exact ⟨x, List.mem_cons_self, hFirst⟩
      · obtain ⟨origin, hOrigin, hResult⟩ :=
          ih hOthers hLater
        exact ⟨origin, List.mem_cons_of_mem _ hOrigin,
          hResult⟩

/- Every result stands where its origin does. -/
theorem getElem?_of_mapM
    {f : α → Except ε β}
    {xs : List α}
    {ys : List β}
    (h : xs.mapM f = .ok ys)
    {position : Nat}
    {x : α}
    (hOrigin : xs[position]? = some x) :
    ∃ y, ys[position]? = some y ∧ f x = .ok y := by
  induction xs generalizing ys position with
  | nil => cases hOrigin
  | cons first rest ih =>
      obtain ⟨y, others, hFirst, hOthers, rfl⟩ :=
        (mapM_cons_eq_ok_iff ..).mp h
      cases position with
      | zero =>
          cases hOrigin
          exact ⟨y, rfl, hFirst⟩
      | succ next => exact ih hOthers hOrigin

------------------------------------------------------------
-- Failures
------------------------------------------------------------

/- All failures are of a kind. -/
def FailsOnly
    (kind : ε → Prop)
    (result : Except ε α) :
    Prop :=
  ∀ error, result = .error error → kind error

variable {kind : ε → Prop}

theorem failsOnly_ok (a : α) :
    FailsOnly kind (.ok a) := by
  intro error hError
  cases hError

theorem failsOnly_error
    {error : ε}
    (h : kind error) :
    FailsOnly kind (.error error : Except ε α) := by
  intro _ hError
  cases hError
  exact h

theorem failsOnly_map
    {result : Except ε α}
    (h : FailsOnly kind result)
    (f : α → β) :
    FailsOnly kind (result.map f) := by
  cases result with
  | error error =>
      exact failsOnly_error (h error rfl)
  | ok a => exact failsOnly_ok (f a)

/- All failures are of a kind when they are made to be. -/
theorem failsOnly_mapError
    {f : ε' → ε}
    (h : ∀ error, kind (f error))
    (result : Except ε' α) :
    FailsOnly kind (result.mapError f) := by
  cases result with
  | error error => exact failsOnly_error (h error)
  | ok a => exact failsOnly_ok a

theorem failsOnly_bind
    {result : Except ε α}
    {next : α → Except ε β}
    (h : FailsOnly kind result)
    (hNext : ∀ a, FailsOnly kind (next a)) :
    FailsOnly kind (result >>= next) := by
  cases result with
  | error error =>
      exact failsOnly_error (h error rfl)
  | ok a => exact hNext a

theorem failsOnly_mapM
    {f : α → Except ε β}
    {xs : List α}
    (h : ∀ x ∈ xs, FailsOnly kind (f x)) :
    FailsOnly kind (xs.mapM f) := by
  induction xs with
  | nil => exact failsOnly_ok []
  | cons x rest ih =>
      rw [List.mapM_cons]
      refine failsOnly_bind (h x List.mem_cons_self)
        fun b => failsOnly_bind ?_ fun _ => failsOnly_ok _
      exact ih fun y hMem => h y (List.mem_cons_of_mem _ hMem)

end Fallible

end ServiceCalls
