import Mathlib.Data.List.Infix
import ServiceCalls.Proofs.Fallible
import ServiceCalls.Proofs.Text.Runs
import ServiceCalls.Template.Embedded

/-
  The placeholders of a text with embedded values.

  A text is read as its placeholders with what stands before
  each of them, and a rest in which none is opened, or one
  that is not closed.  All of them have to be closed, and
  all names have to have a value, for the text to be
  replaced.

  Key definitions include:
    * `EmbeddedText`
    * `EmbeddedText.WellFormed`
    * `EmbeddedText.Closed`
    * `EmbeddedText.replaced`
    * `EmbeddedText.Resolvable`

  Main declarations:
    * `EmbeddedText.exists_written`
    * `EmbeddedText.replaceEmbedded_written`
    * `EmbeddedText.exists_resolveEmbedded_iff`
    * `EmbeddedText.failsOnly_resolveEmbedded`
-/

namespace ServiceCalls

/- A text with its placeholders marked. -/
inductive EmbeddedText where
| plain
    (text : List Char)
| unclosed
    (before : List Char)
    (name : List Char)
| placeholder
    (before : List Char)
    (name : List Char)
    (rest : EmbeddedText)
deriving DecidableEq, Repr

namespace EmbeddedText

------------------------------------------------------------
-- Texts and Their Placeholders
------------------------------------------------------------

/- The text as it is written. -/
def written : EmbeddedText → List Char
  | plain text => text
  | unclosed before name => before ++ embeddedMark ++ name
  | placeholder before name rest =>
      before ++ embeddedMark ++ (name ++ '\x7d' :: rest.written)

/-
  Placeholders are marked where they are: none opens before
  the first mark, and a name ends where it is closed first.
-/
def WellFormed : EmbeddedText → Prop
  | plain text => ¬ embeddedMark <:+: text
  | unclosed before name =>
      ¬ embeddedMark <:+: before ∧ '\x7d' ∉ name
  | placeholder before name rest =>
      ¬ embeddedMark <:+: before ∧ '\x7d' ∉ name ∧
        rest.WellFormed

instance : (marked : EmbeddedText) →
    Decidable marked.WellFormed
  | plain text =>
      inferInstanceAs (Decidable (¬ embeddedMark <:+: text))
  | unclosed before name =>
      inferInstanceAs (Decidable
        (¬ embeddedMark <:+: before ∧ '\x7d' ∉ name))
  | placeholder before name rest =>
      have : Decidable rest.WellFormed :=
        instDecidableWellFormed rest
      inferInstanceAs (Decidable
        (¬ embeddedMark <:+: before ∧ '\x7d' ∉ name ∧
          rest.WellFormed))

/- Every placeholder is closed. -/
def Closed : EmbeddedText → Prop
  | plain _ => True
  | unclosed _ _ => False
  | placeholder _ _ rest => rest.Closed

/- The names of the placeholders that are closed. -/
def names : EmbeddedText → List String
  | plain _ => []
  | unclosed _ _ => []
  | placeholder _ name rest =>
      String.ofList name :: rest.names

/-
  The text with values for its placeholders, or why its
  first bad placeholder has none.
-/
def replaced
    (values : EmbeddedValues)
    (whole : String) :
    EmbeddedText → Except ServiceError (List Char)
  | plain text => .ok text
  | unclosed _ _ => .error (unterminated whole)
  | placeholder before name rest =>
      match values (String.ofList name) with
      | none =>
          .error (unresolvable (String.ofList name) whole)
      | some value =>
          (rest.replaced values whole).map fun after =>
            before ++ value.toList ++ after

------------------------------------------------------------
-- Reading
------------------------------------------------------------

theorem embeddedMark_ne_nil : embeddedMark ≠ [] :=
  List.cons_ne_nil _ _

/- The first mark is the one that nothing opens before. -/
theorem splitOnce_mark
    {before : List Char}
    (h : ¬ embeddedMark <:+: before)
    (after : List Char) :
    Text.splitOnce embeddedMark
      (before ++ embeddedMark ++ after) =
      some (before, after) := by
  induction before with
  | nil => rfl
  | cons c rest ih =>
      rw [List.infix_cons_iff, not_or] at h
      have hPrefix :
          embeddedMark.isPrefixOf
            (c :: (rest ++ embeddedMark ++ after)) =
            false := by
        rw [Bool.eq_false_iff]
        intro hOpens
        -- One character is left to open, but it is no brace.
        cases rest with
        | nil =>
            simp [embeddedMark, List.isPrefixOf] at hOpens
        | cons d more =>
            apply h.1
            simp only [embeddedMark, List.isPrefixOf,
              List.cons_append, Bool.and_true,
              Bool.and_eq_true, beq_iff_eq] at hOpens
            rw [← hOpens.1, ← hOpens.2]
            exact ⟨more, rfl⟩
      rw [List.cons_append, List.cons_append]
      unfold Text.splitOnce
      rw [hPrefix, if_neg Bool.false_ne_true, ih h.2]
      rfl

/- A name ends at the first closing brace. -/
theorem splitOnce_closed
    {name : List Char}
    (h : '\x7d' ∉ name)
    (rest : List Char) :
    Text.splitOnce ['\x7d'] (name ++ '\x7d' :: rest) =
      some (name, rest) := by
  rw [Text.splitOnce_append h]
  simp [Text.splitOnce, List.isPrefixOf]

theorem splitOnce_unclosed
    {name : List Char}
    (h : '\x7d' ∉ name) :
    Text.splitOnce ['\x7d'] name = none := by
  rw [Text.splitOnce_eq_none_iff (List.cons_ne_nil _ _),
    List.singleton_infix_iff]
  exact h

/- Every text has its placeholders. -/
theorem exists_written (text : List Char) :
    ∃ marked : EmbeddedText,
      marked.WellFormed ∧ marked.written = text := by
  cases hOpen : Text.splitOnce embeddedMark text with
  | none =>
      exact ⟨plain text,
        (Text.splitOnce_eq_none_iff embeddedMark_ne_nil
          text).mp hOpen, rfl⟩
  | some opened =>
      obtain ⟨before, after⟩ := opened
      have hBefore : ¬ embeddedMark <:+: before :=
        Text.not_infix_of_splitOnce embeddedMark_ne_nil hOpen
      have hText := Text.append_of_splitOnce hOpen
      cases hClose : Text.splitOnce ['\x7d'] after with
      | none =>
          rw [Text.splitOnce_eq_none_iff
            (List.cons_ne_nil _ _),
            List.singleton_infix_iff] at hClose
          exact ⟨unclosed before after, ⟨hBefore, hClose⟩,
            hText.symm⟩
      | some closed =>
          obtain ⟨name, rest⟩ := closed
          -- What follows a placeholder is marked first.
          have : rest.length < text.length :=
            length_of_placeholder hOpen hClose
          obtain ⟨marked, hMarked, hWritten⟩ :=
            exists_written rest
          have hName :=
            Text.not_infix_of_splitOnce
              (List.cons_ne_nil _ _) hClose
          rw [List.singleton_infix_iff] at hName
          have hAfter := Text.append_of_splitOnce hClose
          refine ⟨placeholder before name marked,
            ⟨hBefore, hName, hMarked⟩, ?_⟩
          rw [written, hWritten, hText, hAfter]
          simp
termination_by text.length

/- A text is replaced as its placeholders are. -/
theorem replaceEmbedded_written
    (values : EmbeddedValues)
    (whole : String)
    {marked : EmbeddedText}
    (h : marked.WellFormed) :
    replaceEmbedded values whole marked.written =
      marked.replaced values whole := by
  induction marked with
  | plain text =>
      have hOpen :=
        (Text.splitOnce_eq_none_iff embeddedMark_ne_nil
          text).mpr h
      rw [replaceEmbedded, written]
      split
      · rfl
      · next hSome => cases hOpen.symm.trans hSome
  | unclosed before name =>
      have hOpen := splitOnce_mark h.1 name
      rw [replaceEmbedded, written]
      split
      · next hNone => cases hOpen.symm.trans hNone
      · next hSome =>
          cases hOpen.symm.trans hSome
          have hClose := splitOnce_unclosed h.2
          split
          · rfl
          · next hFound => cases hClose.symm.trans hFound
  | placeholder before name rest ih =>
      have hOpen := splitOnce_mark h.1
        (name ++ '\x7d' :: rest.written)
      rw [replaceEmbedded, written]
      split
      · next hNone => cases hOpen.symm.trans hNone
      · next hSome =>
          cases hOpen.symm.trans hSome
          have hClose := splitOnce_closed h.2.1 rest.written
          split
          · next hNone => cases hClose.symm.trans hNone
          · next hFound =>
              cases hClose.symm.trans hFound
              rw [ih h.2.2]
              rfl

------------------------------------------------------------
-- Resolving
------------------------------------------------------------

/- A text that is closed and whose names all have values. -/
def Resolvable (values : EmbeddedValues) (text : String) :
    Prop :=
  ∃ marked : EmbeddedText,
    marked.WellFormed ∧
    marked.written = text.toList ∧
    marked.Closed ∧
    ∀ name ∈ marked.names, (values name).isSome

theorem exists_replaced_iff
    (values : EmbeddedValues)
    (whole : String)
    (marked : EmbeddedText) :
    (∃ text, marked.replaced values whole = .ok text) ↔
      marked.Closed ∧
        ∀ name ∈ marked.names, (values name).isSome := by
  induction marked with
  | plain text => simp [replaced, Closed, names]
  | unclosed before name => simp [replaced, Closed]
  | placeholder before name rest ih =>
      rw [replaced, Closed, names, List.forall_mem_cons]
      cases values (String.ofList name) with
      | none => simp
      | some value =>
          dsimp only
          rw [Fallible.exists_map_ok, ih, Option.isSome_some]
          simp

/- What goes wrong lies in how the text was written. -/
theorem failsOnly_replaced
    (values : EmbeddedValues)
    (whole : String)
    (marked : EmbeddedText) :
    Fallible.FailsOnly (·.isConfiguration = true)
      (marked.replaced values whole) := by
  induction marked with
  | plain text => exact Fallible.failsOnly_ok text
  | unclosed before name => exact Fallible.failsOnly_error rfl
  | placeholder before name rest ih =>
      unfold replaced
      split
      · exact Fallible.failsOnly_error rfl
      · exact Fallible.failsOnly_map ih _

/-
  A declared URL is resolved if it has none, if there are no
  values, or if all its placeholders can be replaced.
-/
theorem exists_resolveEmbedded_iff
    (values? : Option EmbeddedValues)
    (url? : Option String) :
    (∃ text, resolveEmbedded values? url? = .ok text) ↔
      ∀ values, values? = some values →
        ∀ url, url? = some url → Resolvable values url := by
  cases url? with
  | none => simp [resolveEmbedded]
  | some url =>
      cases values? with
      | none => simp [resolveEmbedded]
      | some values =>
          have hResolved :
              (∃ text, resolveEmbedded (some values)
                (some url) = .ok text) ↔
                Resolvable values url := by
            rw [resolveEmbedded, Fallible.exists_map_ok]
            constructor
            · intro hText
              obtain ⟨marked, hMarked, hWritten⟩ :=
                exists_written url.toList
              rw [← hWritten,
                replaceEmbedded_written values url hMarked,
                exists_replaced_iff] at hText
              exact ⟨marked, hMarked, hWritten, hText⟩
            · rintro ⟨marked, hMarked, hWritten, hText⟩
              rw [← hWritten,
                replaceEmbedded_written values url hMarked,
                exists_replaced_iff]
              exact hText
          rw [hResolved]
          simp

theorem failsOnly_resolveEmbedded
    (values? : Option EmbeddedValues)
    (url? : Option String) :
    Fallible.FailsOnly (·.isConfiguration = true)
      (resolveEmbedded values? url?) := by
  unfold resolveEmbedded
  split
  · exact Fallible.failsOnly_ok _
  · exact Fallible.failsOnly_ok _
  · next url values =>
      obtain ⟨marked, hMarked, hWritten⟩ :=
        exists_written url.toList
      rw [← hWritten,
        replaceEmbedded_written values url hMarked]
      exact Fallible.failsOnly_map
        (failsOnly_replaced values url marked) _

end EmbeddedText

end ServiceCalls
