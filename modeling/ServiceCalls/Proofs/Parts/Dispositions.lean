import Mathlib.Data.Bool.AllAny
import Mathlib.Data.List.Induction
import ServiceCalls.Part
import ServiceCalls.Proofs.Text.Runs

/-
  File names that are read back from a disposition.

  A file name is looked for by the text that stands before
  it.  No text in quotes holds that text together with its
  quote, but a part name that ends with it has a quote of its
  own behind it.

  Key definitions include:
    * `Disposition.IsOrdinary`
    * `Disposition.Spells`
    * `Disposition.escaped`
    * `Disposition.fileNameKey`

  Main declarations:
    * `Disposition.unquote?_eq_some_iff`
    * `Disposition.not_infix_escaped`
    * `Disposition.suffix_escaped_iff`
    * `Disposition.read_named` and `Disposition.read_misled`
    * `Disposition.read_disposition_iff`
-/

namespace ServiceCalls

namespace Disposition

------------------------------------------------------------
-- Texts in Quotes
------------------------------------------------------------

/- A character that stands in quotes as it is. -/
def IsOrdinary (c : Char) : Prop :=
  c ≠ '"' ∧ c ≠ '\\'

instance (c : Char) : Decidable (IsOrdinary c) :=
  inferInstanceAs (Decidable (c ≠ '"' ∧ c ≠ '\\'))

/-
  How a text may stand in quotes.  A backslash stands before
  a character that is taken as it is.
-/
inductive Spells : List Char → List Char → Prop where
| nil :
    Spells [] []
| ordinary
    {c : Char}
    (hOrdinary : IsOrdinary c)
    {spelled text : List Char}
    (h : Spells spelled text) :
    Spells (c :: spelled) (c :: text)
| escaped
    (c : Char)
    {spelled text : List Char}
    (h : Spells spelled text) :
    Spells ('\\' :: c :: spelled) (c :: text)

/- A text as it stands in quotes. -/
def escaped (text : List Char) : List Char :=
  text.flatMap escapeChar

theorem escapeChar_of_ordinary
    {c : Char}
    (h : IsOrdinary c) :
    escapeChar c = [c] := by
  simp [escapeChar, h.1, h.2]

theorem escapeChar_of_not_ordinary
    {c : Char}
    (h : ¬ IsOrdinary c) :
    escapeChar c = ['\\', c] := by
  rw [IsOrdinary, not_and_or, not_not, not_not] at h
  rcases h with hQuote | hBackslash
  · subst hQuote
    rfl
  · subst hBackslash
    rfl

theorem escaped_cons (c : Char) (rest : List Char) :
    escaped (c :: rest) = escapeChar c ++ escaped rest :=
  List.flatMap_cons

theorem escaped_append (front back : List Char) :
    escaped (front ++ back) =
      escaped front ++ escaped back :=
  List.flatMap_append

theorem escaped_of_ordinary
    {text : List Char}
    (h : ∀ c ∈ text, IsOrdinary c) :
    escaped text = text := by
  induction text with
  | nil => rfl
  | cons c rest ih =>
      rw [List.forall_mem_cons] at h
      rw [escaped_cons, escapeChar_of_ordinary h.1, ih h.2]
      rfl

theorem unquote?_cons
    {c : Char}
    (h : IsOrdinary c)
    (rest : List Char) :
    unquote? (c :: rest) =
      (unquote? rest).map (c :: ·) := by
  rw [unquote?]
  · exact h.1
  · exact fun _ _ hBackslash => absurd hBackslash h.2
  · exact fun hBackslash => absurd hBackslash h.2

theorem unquote?_of_spells
    {spelled text : List Char}
    (h : Spells spelled text)
    (rest : List Char) :
    unquote? (spelled ++ '"' :: rest) = some text := by
  induction h with
  | nil => rfl
  | ordinary hOrdinary _ ih =>
      rw [List.cons_append, unquote?_cons hOrdinary, ih]
      rfl
  | escaped c _ ih =>
      rw [List.cons_append, List.cons_append, unquote?, ih]
      rfl

theorem spells_of_unquote?
    {after text : List Char}
    (h : unquote? after = some text) :
    ∃ spelled rest,
      after = spelled ++ '"' :: rest ∧
        Spells spelled text := by
  induction after using unquote?.induct
    generalizing text with
  | case1 => cases h
  | case2 rest =>
      cases h
      exact ⟨[], rest, rfl, .nil⟩
  | case3 c rest ih =>
      rw [unquote?] at h
      rcases Option.map_eq_some_iff.mp h with
        ⟨more, hMore, rfl⟩
      rcases ih hMore with ⟨spelled, tail, rfl, hSpells⟩
      exact ⟨_, tail, rfl, .escaped c hSpells⟩
  | case4 => cases h
  | case5 c rest hQuote hEscape hBackslash ih =>
      have hOrdinary : IsOrdinary c := by
        refine ⟨hQuote, ?_⟩
        intro hChar
        cases rest with
        | nil => exact hBackslash hChar rfl
        | cons d more => exact hEscape d more hChar rfl
      rw [unquote?_cons hOrdinary] at h
      rcases Option.map_eq_some_iff.mp h with
        ⟨more, hMore, rfl⟩
      rcases ih hMore with ⟨spelled, tail, rfl, hSpells⟩
      exact ⟨_, tail, rfl, .ordinary hOrdinary hSpells⟩

/- What is read is spelled up to a closing quote. -/
theorem unquote?_eq_some_iff (after text : List Char) :
    unquote? after = some text ↔
      ∃ spelled rest,
        after = spelled ++ '"' :: rest ∧
          Spells spelled text := by
  constructor
  · exact spells_of_unquote?
  · rintro ⟨spelled, rest, rfl, hSpells⟩
    exact unquote?_of_spells hSpells rest

theorem spells_escaped (text : List Char) :
    Spells (escaped text) text := by
  induction text with
  | nil => exact .nil
  | cons c more ih =>
      rw [escaped_cons]
      by_cases hOrdinary : IsOrdinary c
      · rw [escapeChar_of_ordinary hOrdinary]
        exact .ordinary hOrdinary ih
      · rw [escapeChar_of_not_ordinary hOrdinary]
        exact .escaped c ih

------------------------------------------------------------
-- Words in Quoted Texts
------------------------------------------------------------

variable {word : List Char}

/- No quote stands right behind ordinary characters. -/
theorem not_prefix_escaped
    (hWord : ∀ c ∈ word, IsOrdinary c)
    (text : List Char) :
    ¬ word ++ ['"'] <+: escaped text := by
  induction word generalizing text with
  | nil =>
      rintro ⟨rest, hText⟩
      cases text with
      | nil => cases hText
      | cons c more =>
          rw [escaped_cons] at hText
          by_cases hOrdinary : IsOrdinary c
          · rw [escapeChar_of_ordinary hOrdinary] at hText
            cases hText
            exact hOrdinary.1 rfl
          · rw [escapeChar_of_not_ordinary hOrdinary]
              at hText
            cases hText
  | cons d others ih =>
      rw [List.forall_mem_cons] at hWord
      rintro ⟨rest, hText⟩
      cases text with
      | nil => cases hText
      | cons c more =>
          rw [escaped_cons] at hText
          by_cases hOrdinary : IsOrdinary c
          · rw [escapeChar_of_ordinary hOrdinary] at hText
            exact ih hWord.2 more
              ⟨rest, (List.cons.inj hText).2⟩
          · rw [escapeChar_of_not_ordinary hOrdinary]
              at hText
            exact hWord.1.2 (List.cons.inj hText).1

theorem not_infix_escaped
    (hSome : word ≠ [])
    (hWord : ∀ c ∈ word, IsOrdinary c)
    (text : List Char) :
    ¬ word ++ ['"'] <:+: escaped text := by
  induction text with
  | nil => simp [escaped]
  | cons c rest ih =>
      have hStart := not_prefix_escaped hWord (c :: rest)
      rw [escaped_cons] at hStart ⊢
      by_cases hOrdinary : IsOrdinary c
      · rw [escapeChar_of_ordinary hOrdinary] at hStart ⊢
        rw [List.singleton_append] at hStart ⊢
        rw [List.infix_cons_iff, not_or]
        exact ⟨hStart, ih⟩
      · rw [escapeChar_of_not_ordinary hOrdinary]
          at hStart ⊢
        have hSecond :
            ¬ word ++ ['"'] <+: c :: escaped rest := by
          intro hPrefix
          cases word with
          | nil => exact hSome rfl
          | cons d others =>
              rw [List.cons_append,
                List.cons_prefix_cons] at hPrefix
              rw [List.forall_mem_cons, hPrefix.1] at hWord
              exact hOrdinary hWord.1
        rw [List.cons_append, List.singleton_append,
          List.infix_cons_iff, List.infix_cons_iff, not_or,
          not_or]
        exact ⟨hStart, hSecond, ih⟩

/- Ordinary characters end a text as they end it in quotes. -/
theorem suffix_escaped_iff
    (hWord : ∀ c ∈ word, IsOrdinary c)
    (text : List Char) :
    word <:+ escaped text ↔ word <:+ text := by
  induction text using List.reverseRecOn generalizing word with
  | nil => rfl
  | append_singleton front c ih =>
      rw [escaped_append, escaped_cons,
        List.suffix_concat_iff]
      by_cases hOrdinary : IsOrdinary c
      · rw [escapeChar_of_ordinary hOrdinary]
        change word <:+ escaped front ++ [c] ↔ _
        rw [List.suffix_concat_iff]
        refine or_congr_right (exists_congr fun more => ?_)
        refine and_congr_right fun hMore => ?_
        apply ih
        intro d hMem
        apply hWord d
        rw [hMore]
        exact List.mem_append_left _ hMem
      · rw [escapeChar_of_not_ordinary hOrdinary]
        change word <:+ escaped front ++ ['\\', c] ↔ _
        have hSplit :
            escaped front ++ ['\\', c] =
              (escaped front ++ ['\\']) ++ [c] := by
          simp
        rw [hSplit, List.suffix_concat_iff]
        refine or_congr_right (exists_congr fun more => ?_)
        refine and_congr_right fun hMore => ?_
        -- The last character of the word would be special.
        refine absurd (hWord c ?_) hOrdinary
        rw [hMore]
        exact List.mem_append_right _ List.mem_cons_self

------------------------------------------------------------
-- Dispositions
------------------------------------------------------------

/- What stands before the quote of a file name. -/
def fileNameKey : List Char :=
  "filename=".toList

/- What stands before the name of a part. -/
def nameLead : List Char :=
  "form-data; name=".toList

theorem isOrdinary_of_mem_key :
    ∀ c ∈ fileNameKey, IsOrdinary c :=
  List.all_iff_forall_prop.mp (by decide)

theorem mark_eq : fileNameMark = fileNameKey ++ ['"'] := by
  decide

/- The part name brings a mark if it ends with the key. -/
theorem mark_infix_iff (name tail : List Char) :
    fileNameMark <:+:
        nameLead ++ '"' :: (escaped name ++ '"' :: tail) ↔
      fileNameKey <:+ name ∨ fileNameMark <:+: tail := by
  have hQuote : '"' ∉ fileNameKey := by decide
  have hLead : ¬ fileNameMark <:+: nameLead := by
    intro hInfix
    have hMem : '"' ∈ nameLead :=
      hInfix.subset (by decide)
    exact absurd hMem (by decide)
  have hEnd : ¬ fileNameKey <:+ nameLead := by decide
  have hName :=
    not_infix_escaped (by decide) isOrdinary_of_mem_key name
  rw [mark_eq] at hLead ⊢
  rw [Text.infix_concat_append_cons_iff hQuote,
    Text.infix_concat_append_cons_iff hQuote,
    suffix_escaped_iff isOrdinary_of_mem_key]
  simp only [hLead, hEnd, hName, false_or]

theorem toList_unnamed (name : String) :
    (contentDisposition name none).toList =
      nameLead ++ '"' :: (escaped name.toList ++ ['"']) := by
  unfold contentDisposition
  simp only [String.toList_ofList, quote, List.append_nil]
  rfl

theorem toList_named (name file : String) :
    (contentDisposition name (some file)).toList =
      nameLead ++ '"' :: (escaped name.toList ++
        '"' :: ([';', ' '] ++ fileNameMark ++
          (escaped file.toList ++ ['"']))) := by
  have hMark :
      "; filename=".toList ++ ['"'] =
        [';', ' '] ++ fileNameMark := by
    decide
  unfold contentDisposition
  rw [← hMark]
  simp only [String.toList_ofList, quote, List.append_assoc,
    List.cons_append, List.nil_append]
  rfl

/- What is read begins behind the first mark. -/
theorem read_of_first
    {disposition : String}
    {before after : List Char}
    (hText :
      disposition.toList = before ++ fileNameMark ++ after)
    (hFirst : ¬ fileNameMark <:+: before ++ fileNameKey) :
    dispositionFileName? disposition =
      (unquote? after).map String.ofList := by
  have hSplit :
      Text.splitOnce fileNameMark disposition.toList =
        some (before, after) := by
    rw [hText]
    exact Text.splitOnce_append_pattern hFirst after
  unfold dispositionFileName?
  rw [hSplit]
  cases hName : unquote? after with
  | none => simp [hName]
  | some name => simp [hName]

theorem read_of_none
    {disposition : String}
    (h : ¬ fileNameMark <:+: disposition.toList) :
    dispositionFileName? disposition = none := by
  have hSplit :
      Text.splitOnce fileNameMark disposition.toList =
        none :=
    (Text.splitOnce_eq_none_iff (List.cons_ne_nil _ _)
      _).mpr h
  unfold dispositionFileName?
  rw [hSplit]
  rfl

/- A name that ends with the key ends with a mark. -/
theorem mark_of_suffix
    {name : List Char}
    (h : fileNameKey <:+ name)
    (rest : List Char) :
    ∃ front,
      nameLead ++ '"' :: (escaped name ++ '"' :: rest) =
          front ++ fileNameMark ++ rest ∧
        ¬ fileNameMark <:+: front ++ fileNameKey := by
  rcases h with ⟨start, rfl⟩
  have hName :
      escaped (start ++ fileNameKey) =
        escaped start ++ fileNameKey := by
    rw [escaped_append,
      escaped_of_ordinary isOrdinary_of_mem_key]
  refine ⟨nameLead ++ '"' :: escaped start, ?_, ?_⟩
  · rw [hName, mark_eq]
    simp
  · -- The last quote of what stands before is the opening one.
    have hQuote : '"' ∉ fileNameKey := by decide
    rw [List.append_assoc, List.cons_append, ← hName,
      mark_eq, Text.infix_concat_append_cons_iff hQuote]
    rintro (hLead | hEnd | hInfix)
    · exact absurd (hLead.subset (by decide))
        (by decide : '"' ∉ nameLead)
    · exact absurd hEnd (by decide)
    · exact not_infix_escaped (by decide)
        isOrdinary_of_mem_key _ hInfix

/- A file name is found behind its own mark. -/
theorem read_named
    {name : String}
    (h : ¬ fileNameKey <:+ name.toList)
    (file : String) :
    dispositionFileName?
        (contentDisposition name (some file)) =
      some file := by
  have hBetween :
      ¬ fileNameMark <:+: [';', ' '] ++ fileNameKey := by
    intro hInfix
    exact absurd (hInfix.subset (by decide))
      (by decide : '"' ∉ [';', ' '] ++ fileNameKey)
  have hText :
      (contentDisposition name (some file)).toList =
        nameLead ++ '"' :: (escaped name.toList ++
            '"' :: [';', ' ']) ++
          fileNameMark ++ (escaped file.toList ++ ['"']) := by
    rw [toList_named]
    simp
  rw [read_of_first hText,
    unquote?_of_spells (spells_escaped _)]
  · exact congrArg some String.ofList_toList
  · rw [List.append_assoc, List.cons_append,
      List.append_assoc, List.cons_append, mark_infix_iff]
    exact not_or.mpr ⟨h, hBetween⟩

/- Otherwise what stands between the names is found. -/
theorem read_misled
    {name : String}
    (h : fileNameKey <:+ name.toList)
    (file : String) :
    dispositionFileName?
        (contentDisposition name (some file)) =
      some "; filename=" := by
  rcases mark_of_suffix h ([';', ' '] ++ fileNameMark ++
    (escaped file.toList ++ ['"'])) with
    ⟨front, hFront, hFirst⟩
  have hText := toList_named name file
  rw [hFront] at hText
  rw [read_of_first hText hFirst]
  have hOrdinary :
      escaped ([';', ' '] ++ fileNameKey) =
        [';', ' '] ++ fileNameKey :=
    escaped_of_ordinary
      (List.all_iff_forall_prop.mp (by decide))
  have hBetween :
      [';', ' '] ++ fileNameMark ++
          (escaped file.toList ++ ['"']) =
        escaped ([';', ' '] ++ fileNameKey) ++
          '"' :: (escaped file.toList ++ ['"']) := by
    rw [hOrdinary, mark_eq]
    simp
  rw [hBetween, unquote?_of_spells (spells_escaped _)]
  rfl

/- A disposition without a file name gives none. -/
theorem read_unnamed (name : String) :
    dispositionFileName? (contentDisposition name none) =
      none := by
  by_cases hSuffix : fileNameKey <:+ name.toList
  · rcases mark_of_suffix hSuffix [] with
      ⟨front, hFront, hFirst⟩
    have hText := toList_unnamed name
    rw [hFront] at hText
    rw [read_of_first hText hFirst]
    rfl
  · apply read_of_none
    rw [toList_unnamed, mark_infix_iff]
    exact not_or.mpr ⟨hSuffix, by decide⟩

/- Whether a file name is found as it was given. -/
theorem read_eq_file_iff (name file : String) :
    dispositionFileName?
        (contentDisposition name (some file)) =
          some file ↔
      ¬ "filename=".toList <:+ name.toList ∨
        file = "; filename=" := by
  by_cases hSuffix : fileNameKey <:+ name.toList
  · rw [read_misled hSuffix, Option.some_inj]
    constructor
    · exact fun hFile => .inr hFile.symm
    · rintro (hNot | hFile)
      · exact absurd hSuffix hNot
      · exact hFile.symm
  · rw [read_named hSuffix]
    exact ⟨fun _ => .inl hSuffix, fun _ => rfl⟩

/-
  A file name is read back from a disposition exactly when
  the name of the part does not end with the text that file
  names are looked for by, or the file is named like what
  stands between the two names.  Without a file name, none
  is read back.
-/
theorem read_disposition_iff (name : String) :
    (∀ file,
      dispositionFileName?
          (contentDisposition name (some file)) =
            some file ↔
        ¬ "filename=".toList <:+ name.toList ∨
          file = "; filename=") ∧
      dispositionFileName? (contentDisposition name none) =
        none :=
  ⟨read_eq_file_iff name, read_unnamed name⟩

/- A part that is named like the key hides its file. -/
theorem file_not_always_read_back :
    ¬∀ name file,
      dispositionFileName?
          (contentDisposition name (some file)) =
        some file := by
  intro hAll
  have hHidden := hAll "filename=" "a.txt"
  rw [read_misled (by decide)] at hHidden
  exact absurd hHidden (by decide)

end Disposition

end ServiceCalls
