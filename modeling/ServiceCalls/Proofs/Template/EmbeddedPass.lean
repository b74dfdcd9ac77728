import ServiceCalls.Proofs.Template.EmbeddedText

/-
  Embedded values are replaced in one pass.

  A text is taken apart in one way only, and its openings
  are met from left to right.  The first one that is not
  closed, or whose name has no value, is reported.  If there
  is none, every placeholder has given way to its value, and
  no value is looked at again.

  Key definitions include:
    * `EmbeddedText.Opening`
    * `EmbeddedText.Opening.fault?`
    * `EmbeddedText.openings`
    * `EmbeddedText.filled`

  Main declarations:
    * `EmbeddedText.eq_of_written`
    * `EmbeddedText.replaced_eq`
    * `EmbeddedText.resolved_in_one_pass`
-/

namespace ServiceCalls

namespace EmbeddedText

------------------------------------------------------------
-- Openings
------------------------------------------------------------

/- A place where a placeholder is opened. -/
inductive Opening where
| closed
    (name : String)
| unclosed
deriving DecidableEq, Repr

/- What is wrong with an opening, if anything is. -/
def Opening.fault?
    (values : EmbeddedValues)
    (whole : String) :
    Opening → Option ServiceError
  | closed name =>
      match values name with
      | none => some (unresolvable name whole)
      | some _ => none
  | unclosed => some (unterminated whole)

/- The openings of a text, from left to right. -/
def openings : EmbeddedText → List Opening
  | plain _ => []
  | unclosed _ _ => [.unclosed]
  | placeholder _ name rest =>
      .closed (String.ofList name) :: rest.openings

/-
  The text with values in place of its placeholders; all
  else is as it is written.
-/
def filled (values : EmbeddedValues) :
    EmbeddedText → List Char
  | plain text => text
  | unclosed before name => before ++ embeddedMark ++ name
  | placeholder before name rest =>
      before ++
        ((values (String.ofList name)).getD "").toList ++
        rest.filled values

------------------------------------------------------------
-- One Reading
------------------------------------------------------------

/- What stands before the first opening and behind it. -/
def opened? :
    EmbeddedText → Option (List Char × List Char)
  | plain _ => none
  | unclosed before name => some (before, name)
  | placeholder before name rest =>
      some (before, name ++ '\x7d' :: rest.written)

theorem splitOnce_written
    {marked : EmbeddedText}
    (h : marked.WellFormed) :
    Text.splitOnce embeddedMark marked.written =
      marked.opened? := by
  cases marked with
  | plain text =>
      exact (Text.splitOnce_eq_none_iff embeddedMark_ne_nil
        text).mpr h
  | unclosed before name => exact splitOnce_mark h.1 name
  | placeholder before name rest =>
      exact splitOnce_mark h.1 (name ++ '\x7d' :: rest.written)

/- A text is taken apart in one way. -/
theorem eq_of_written
    {first second : EmbeddedText}
    (hFirst : first.WellFormed)
    (hSecond : second.WellFormed)
    (h : first.written = second.written) :
    first = second := by
  induction first generalizing second with
  | plain text =>
      have hOpened := splitOnce_written hSecond
      rw [← h, splitOnce_written hFirst] at hOpened
      cases second with
      | plain other => exact congrArg plain h
      | unclosed before name => cases hOpened
      | placeholder before name rest => cases hOpened
  | unclosed before name =>
      have hOpened := splitOnce_written hSecond
      rw [← h, splitOnce_written hFirst] at hOpened
      cases second with
      | plain other => cases hOpened
      | unclosed before name => cases hOpened; rfl
      | placeholder before inner rest =>
          cases hOpened
          exact absurd (List.mem_append_right _
            List.mem_cons_self) hFirst.2
  | placeholder before name rest ih =>
      have hOpened := splitOnce_written hSecond
      rw [← h, splitOnce_written hFirst] at hOpened
      cases second with
      | plain other => cases hOpened
      | unclosed before inner =>
          cases hOpened
          exact absurd (List.mem_append_right _
            List.mem_cons_self) hSecond.2
      | placeholder front inner more =>
          have hParts := Prod.mk.inj (Option.some.inj hOpened)
          -- Both names end at the first closing brace.
          have hClosed := splitOnce_closed hSecond.2.1
            more.written
          rw [← hParts.2, splitOnce_closed hFirst.2.1]
            at hClosed
          have hNames := Prod.mk.inj (Option.some.inj hClosed)
          rw [hParts.1, hNames.1,
            ih hFirst.2.2 hSecond.2.2 hNames.2]

------------------------------------------------------------
-- One Pass
------------------------------------------------------------

/- The first fault is reported if there is one. -/
theorem replaced_eq
    (values : EmbeddedValues)
    (whole : String)
    (marked : EmbeddedText) :
    marked.replaced values whole =
      match marked.openings.findSome?
          (Opening.fault? values whole) with
      | some error => .error error
      | none => .ok (marked.filled values) := by
  induction marked with
  | plain text => rfl
  | unclosed before name => rfl
  | placeholder before name rest ih =>
      rw [replaced, openings, List.findSome?_cons,
        Opening.fault?, filled]
      cases values (String.ofList name) with
      | none => rfl
      | some value =>
          dsimp only
          rw [ih]
          cases rest.openings.findSome?
            (Opening.fault? values whole) <;> rfl

/- A text is resolved as its openings are. -/
theorem resolveEmbedded_written
    (values : EmbeddedValues)
    {url : String}
    {marked : EmbeddedText}
    (h : marked.WellFormed)
    (hWritten : marked.written = url.toList) :
    resolveEmbedded (some values) (some url) =
      match marked.openings.findSome?
          (Opening.fault? values url) with
      | some error => .error error
      | none => .ok (String.ofList (marked.filled values)) := by
  rw [resolveEmbedded, ← hWritten,
    replaceEmbedded_written values url h, replaced_eq]
  cases marked.openings.findSome?
    (Opening.fault? values url) <;> rfl

theorem resolveEmbedded_eq_ok_iff
    (values : EmbeddedValues)
    {url : String}
    {marked : EmbeddedText}
    (h : marked.WellFormed)
    (hWritten : marked.written = url.toList)
    (text : String) :
    resolveEmbedded (some values) (some url) = .ok text ↔
      (∀ opening ∈ marked.openings,
        opening.fault? values url = none) ∧
      text.toList = marked.filled values := by
  rw [resolveEmbedded_written values h hWritten,
    ← List.findSome?_eq_none_iff]
  cases marked.openings.findSome?
      (Opening.fault? values url) with
  | some error => simp
  | none =>
      rw [Except.ok.injEq, ← String.toList_inj,
        String.toList_ofList]
      exact ⟨fun hText => ⟨rfl, hText.symm⟩,
        fun hText => hText.2.symm⟩

theorem resolveEmbedded_eq_error_iff
    (values : EmbeddedValues)
    {url : String}
    {marked : EmbeddedText}
    (h : marked.WellFormed)
    (hWritten : marked.written = url.toList)
    (error : ServiceError) :
    resolveEmbedded (some values) (some url) =
        .error error ↔
      ∃ before opening after,
        marked.openings = before ++ opening :: after ∧
        opening.fault? values url = some error ∧
        ∀ earlier ∈ before,
          earlier.fault? values url = none := by
  rw [resolveEmbedded_written values h hWritten,
    ← List.findSome?_eq_some_iff]
  cases marked.openings.findSome?
      (Opening.fault? values url) with
  | some found => simp
  | none => simp

/- A text that opens nothing stays as it is. -/
theorem resolveEmbedded_of_plain
    (values : EmbeddedValues)
    {url : String}
    (h : ¬ embeddedMark <:+: url.toList) :
    resolveEmbedded (some values) (some url) = .ok url := by
  have hPlain : (plain url.toList).WellFormed := h
  exact (resolveEmbedded_eq_ok_iff values hPlain rfl url).mpr
    ⟨List.forall_mem_nil _, rfl⟩

/-
  A text is taken apart in one way.  It is resolved if none
  of its openings has a fault, with values in place of
  placeholders; and the fault of the first opening that has
  one is reported.  A text without openings stays as it is,
  and so does every text if there are no values.
-/
theorem resolved_in_one_pass (url : String) :
    ∃ marked : EmbeddedText,
      (∀ other : EmbeddedText,
        other.WellFormed ∧ other.written = url.toList ↔
          other = marked) ∧
      (∀ values : EmbeddedValues,
        (∀ text,
          resolveEmbedded (some values) (some url) =
              .ok text ↔
            (∀ opening ∈ marked.openings,
              opening.fault? values url = none) ∧
            text.toList = marked.filled values) ∧
        (∀ error,
          resolveEmbedded (some values) (some url) =
              .error error ↔
            ∃ before opening after,
              marked.openings = before ++ opening :: after ∧
              opening.fault? values url = some error ∧
              ∀ earlier ∈ before,
                earlier.fault? values url = none) ∧
        (¬ embeddedMark <:+: url.toList →
          resolveEmbedded (some values) (some url) =
            .ok url)) ∧
      resolveEmbedded none (some url) = .ok url := by
  obtain ⟨marked, hMarked, hWritten⟩ :=
    exists_written url.toList
  refine ⟨marked, fun other => ?_, fun values => ?_, rfl⟩
  · constructor
    · rintro ⟨hOther, hSame⟩
      exact eq_of_written hOther hMarked
        (hSame.trans hWritten.symm)
    · intro hOther
      rw [hOther]
      exact ⟨hMarked, hWritten⟩
  · exact
      ⟨resolveEmbedded_eq_ok_iff values hMarked hWritten,
        resolveEmbedded_eq_error_iff values hMarked hWritten,
        resolveEmbedded_of_plain values⟩

/- Two placeholders; a mark stands in a name and before one. -/
def nestedUrl : String :=
  "$\x7ba\x7d$$\x7bb$\x7bc\x7d/d\x7d"

/- The first value looks like a placeholder itself. -/
def nestedValues : EmbeddedValues := fun name =>
  if name = "a" then some "$\x7bb\x7d"
  else if name = "b$\x7bc" then some "1"
  else none

/- The URL taken apart. -/
def nestedReading : EmbeddedText :=
  .placeholder [] ['a']
    (.placeholder ['$'] ['b', '$', '\x7b', 'c']
      (.plain ['/', 'd', '\x7d']))

/- A value is kept as it is, and the first gap is reported. -/
theorem resolved_of_nested :
    resolveEmbedded (some nestedValues) (some nestedUrl) =
      .ok "$\x7bb\x7d$1/d\x7d" ∧
    resolveEmbedded (some fun _ => none) (some nestedUrl) =
      .error (unresolvable "a" nestedUrl) := by
  obtain ⟨marked, hOnly, hValues, _⟩ :=
    resolved_in_one_pass nestedUrl
  have hMarked : nestedReading = marked :=
    (hOnly nestedReading).mp ⟨by decide, by decide⟩
  subst hMarked
  refine ⟨((hValues nestedValues).1 _).mpr ⟨?_, by decide⟩,
    ((hValues fun _ => none).2.1 _).mpr ?_⟩
  · decide
  · exact ⟨[], .closed "a", _, rfl, rfl,
      List.forall_mem_nil _⟩

end EmbeddedText

end ServiceCalls
