import Mathlib.Data.List.Forall2
import ServiceCalls.Proofs.Http.HeaderText
import ServiceCalls.Proofs.Parts.Dispositions
import ServiceCalls.Proofs.Parts.Elements
import ServiceCalls.Proofs.Parts.Routes

/-
  The file names that parts are sent with.

  A disposition gives a file name by a parameter of its own.
  The name that comes with a value is taken before it, and
  what is taken from the disposition is what stands behind
  the first text that looks like such a parameter.

  Key definitions include:
    * `Disposition.Closed`
    * `Disposition.Gives` and `Disposition.Finds`
    * `Headers.GivesFile` and `Headers.FindsFile`
    * `Part.sources`

  Main declarations:
    * `headerFileName?_eq_some_iff`
    * `Part.fileName_eq_some_iff`
    * `Part.givesFile_of_setFileName`
    * `Part.findsFile_of_setFileName`
    * `fileNames_of_encodeParts`
-/

namespace ServiceCalls

------------------------------------------------------------
-- File Name Parameters
------------------------------------------------------------

namespace Disposition

/- A text in which every quote that opens is closed. -/
inductive Closed : List Char → Prop where
| nil :
    Closed []
| plain
    {c : Char}
    (hPlain : c ≠ '"')
    {rest : List Char}
    (h : Closed rest) :
    Closed (c :: rest)
| quoted
    {spelled text : List Char}
    (hSpells : Spells spelled text)
    {rest : List Char}
    (h : Closed rest) :
    Closed ('"' :: (spelled ++ '"' :: rest))

/- A printable character of ASCII. -/
def IsPrintable (c : Char) : Prop :=
  0x20 ≤ c.toNat ∧ c.toNat < 0x7F

instance (c : Char) : Decidable (IsPrintable c) :=
  inferInstanceAs
    (Decidable (0x20 ≤ c.toNat ∧ c.toNat < 0x7F))

/-
  A parameter gives a file name.  It stands behind a
  semicolon that is not in quotes, and maybe blanks.
-/
def Gives (disposition file : List Char) : Prop :=
  ∃ front blanks spelled rest,
    disposition =
        front ++ ';' :: (blanks ++ fileNameMark ++
          (spelled ++ '"' :: rest)) ∧
      Closed front ∧
      (∀ c ∈ blanks, c = ' ' ∨ c = '\t') ∧
      Spells spelled file

/- A file name is what stands behind the first mark. -/
def Finds (disposition file : List Char) : Prop :=
  ∃ before spelled rest,
    disposition =
        before ++ fileNameMark ++ (spelled ++ '"' :: rest) ∧
      ¬ fileNameMark <:+: before ++ fileNameKey ∧
      Spells spelled file

theorem dispositionFileName?_eq_some_iff
    (disposition file : String) :
    dispositionFileName? disposition = some file ↔
      Finds disposition.toList file.toList := by
  have hSome : fileNameMark ≠ [] := List.cons_ne_nil _ _
  constructor
  · intro hFile
    unfold dispositionFileName? at hFile
    rcases Option.bind_eq_some_iff.mp hFile with
      ⟨⟨before, after⟩, hSplit, hName⟩
    rcases Option.bind_eq_some_iff.mp hName with
      ⟨name, hUnquoted, hText⟩
    cases hText
    rcases (Text.splitOnce_eq_some_iff hSome _ _ _).mp
      hSplit with ⟨hWhole, hFirst⟩
    rcases (unquote?_eq_some_iff _ _).mp hUnquoted with
      ⟨spelled, rest, rfl, hSpells⟩
    refine ⟨before, spelled, rest, hWhole, hFirst, ?_⟩
    rw [String.toList_ofList]
    exact hSpells
  · rintro ⟨before, spelled, rest, hWhole, hFirst, hSpells⟩
    rw [read_of_first hWhole hFirst,
      unquote?_of_spells hSpells, Option.map_some,
      String.ofList_toList]

theorem Closed.append_plain
    {front : List Char}
    (hFront : ∀ c ∈ front, c ≠ '"')
    {rest : List Char}
    (hRest : Closed rest) :
    Closed (front ++ rest) := by
  induction front with
  | nil => exact hRest
  | cons c more ih =>
      rw [List.forall_mem_cons] at hFront
      exact .plain hFront.1 (ih hFront.2)

/- A disposition with a file name gives that file name. -/
theorem gives_contentDisposition (name file : String) :
    Gives (contentDisposition name (some file)).toList
      file.toList := by
  have hName :
      Closed
        (nameLead ++ '"' :: (escaped name.toList ++ ['"'])) :=
    .append_plain (List.all_iff_forall_prop.mp (by decide))
      (.quoted (spells_escaped _) .nil)
  refine ⟨_, [' '], escaped file.toList, [], ?_, hName, ?_,
    spells_escaped _⟩
  · rw [toList_named]
    simp
  · exact List.forall_mem_singleton.mpr (.inl rfl)

theorem forall_mem_escaped_iff
    {p : Char → Prop}
    (hBackslash : p '\\')
    (text : List Char) :
    (∀ c ∈ escaped text, p c) ↔ ∀ c ∈ text, p c := by
  induction text with
  | nil => rfl
  | cons c more ih =>
      rw [escaped_cons, List.forall_mem_append, ih,
        List.forall_mem_cons]
      refine and_congr_left fun _ => ?_
      by_cases hOrdinary : IsOrdinary c
      · rw [escapeChar_of_ordinary hOrdinary,
          List.forall_mem_singleton]
      · rw [escapeChar_of_not_ordinary hOrdinary]
        simp [hBackslash]

/- Only the two names bring other characters than ASCII. -/
theorem isAscii_contentDisposition_iff
    (name file : String) :
    (∀ c ∈ (contentDisposition name (some file)).toList,
        c.toNat < 0x80) ↔
      (∀ c ∈ name.toList, c.toNat < 0x80) ∧
        ∀ c ∈ file.toList, c.toNat < 0x80 := by
  have hLead : ∀ c ∈ nameLead, c.toNat < 0x80 :=
    List.all_iff_forall_prop.mp (by decide)
  have hMark : ∀ c ∈ fileNameMark, c.toNat < 0x80 :=
    List.all_iff_forall_prop.mp (by decide)
  have hQuote : ('"' : Char).toNat < 0x80 := by decide
  have hBetween :
      (';' : Char).toNat < 0x80 ∧ (' ' : Char).toNat < 0x80 :=
    by decide
  have hEscaped :=
    forall_mem_escaped_iff
      (p := fun c => c.toNat < 0x80) (by decide)
  rw [toList_named]
  simp only [List.forall_mem_append, List.forall_mem_cons,
    hEscaped]
  constructor
  · rintro ⟨_, _, hName, _, _, hFile, _⟩
    exact ⟨hName, hFile⟩
  · rintro ⟨hName, hFile⟩
    exact ⟨hLead, hQuote, hName, hQuote,
      ⟨⟨hBetween.1, hBetween.2, nofun⟩, hMark⟩, hFile,
      hQuote, nofun⟩

end Disposition

------------------------------------------------------------
-- Dispositions in Headers
------------------------------------------------------------

namespace Headers

/- A disposition gives a file name that is printable. -/
def GivesFile (headers : Headers) (file : String) : Prop :=
  (∃ value ∈ headers.values .contentDisposition,
    Disposition.Gives
      (Text.decodeLenient value.bytes).toList
      file.toList) ∧
    ∀ c ∈ file.toList, Disposition.IsPrintable c

/- A file name is found in the first disposition. -/
def FindsFile (headers : Headers) (file : String) : Prop :=
  ∃ value,
    headers.get? .contentDisposition = some value ∧
      value.isReadable = true ∧
      Disposition.Finds
        (Text.decodeLenient value.bytes).toList file.toList

end Headers

theorem headerFileName?_eq_some_iff
    (headers : Headers)
    (file : String) :
    headerFileName? headers = some file ↔
      headers.FindsFile file := by
  unfold headerFileName? Headers.text? Headers.FindsFile
  rw [Option.bind_eq_some_iff]
  constructor
  · rintro ⟨text, hText, hFile⟩
    rcases Option.bind_eq_some_iff.mp hText with
      ⟨value, hValue, hRead⟩
    rcases (HeaderValue.text?_eq_some_iff _ _).mp hRead with
      ⟨hReadable, rfl⟩
    exact ⟨value, hValue, hReadable,
      (Disposition.dispositionFileName?_eq_some_iff _ _).mp
        hFile⟩
  · rintro ⟨value, hValue, hReadable, hFinds⟩
    refine ⟨_, Option.bind_eq_some_iff.mpr ⟨value, hValue,
      (HeaderValue.text?_eq_some_iff _ _).mpr
        ⟨hReadable, rfl⟩⟩, ?_⟩
    exact (Disposition.dispositionFileName?_eq_some_iff
      _ _).mpr hFinds

namespace Part

------------------------------------------------------------
-- Names of Encoded Parts
------------------------------------------------------------

/- A part with each value that it is sent for. -/
def sources (part : Part) : List (Part × Argument) :=
  ((Argument.valuesOf part.elements).filter
    (!·.isAbsent)).map fun element => (part, element)

section

variable [KnownMedia]

theorem encodedElements_eq (part : Part) :
    part.encodedElements =
      part.sources.map fun source =>
        source.1.encodedElement source.2 := by
  unfold encodedElements sources
  rw [List.map_map]
  rfl

/- The name that comes with a value is taken first. -/
theorem fileName_eq_some_iff
    (part : Part)
    (element : Argument)
    (file : String) :
    (part.encodedElement element).fileName = some file ↔
      ownFileName? element = some file ∨
        ownFileName? element = none ∧
          part.headers.FindsFile file := by
  rw [← headerFileName?_eq_some_iff]
  unfold encodedElement
  cases ownFileName? element with
  | none => simp
  | some own => simp

theorem fileName_eq_own_iff
    (part : Part)
    (element : Argument) :
    (part.encodedElement element).fileName =
        ownFileName? element ↔
      ownFileName? element ≠ none ∨
        ∀ file, ¬ part.headers.FindsFile file := by
  simp only [← headerFileName?_eq_some_iff]
  unfold encodedElement
  cases ownFileName? element with
  | none => simp [Option.eq_none_iff_forall_ne_some]
  | some own => simp

end

------------------------------------------------------------
-- Names That Are Set
------------------------------------------------------------

/- A file name that is set makes the only disposition. -/
theorem exists_of_setFileName
    {part changed : Part}
    {file : String}
    (h : part.setFileName file = .ok changed) :
    ∃ value,
      HeaderValue.read
          (contentDisposition part.name (some file)) =
        .ok value ∧
      changed.headers.values .contentDisposition =
        [value] := by
  unfold setFileName setHeader Headers.insertText at h
  rw [read_contentDisposition] at h
  rcases Fallible.map_eq_ok h with
    ⟨headers, hHeaders, hChanged⟩
  rcases Fallible.bind_eq_ok hHeaders with
    ⟨header, hHeader, hInsert⟩
  rcases Fallible.bind_eq_ok hInsert with
    ⟨value, hValue, hDone⟩
  refine ⟨value, hValue, ?_⟩
  rw [← hChanged, ← Except.ok.inj hDone,
    ← Except.ok.inj hHeader]
  exact Headers.values_insert_self _ _ _

theorem givesFile_of_setFileName
    {part changed : Part}
    {file : String}
    (h : part.setFileName file = .ok changed)
    (hPrintable :
      ∀ c ∈ file.toList, Disposition.IsPrintable c) :
    changed.headers.GivesFile file := by
  rcases exists_of_setFileName h with
    ⟨value, hRead, hValues⟩
  refine ⟨⟨value, ?_, ?_⟩, hPrintable⟩
  · rw [hValues]
    exact List.mem_singleton_self value
  · rw [HeaderValue.decodeLenient_of_read hRead]
    exact Disposition.gives_contentDisposition _ _

/-
  A file name that is set is found if the name of the part
  can be read and does not mislead.
-/
theorem findsFile_of_setFileName
    {part changed : Part}
    {file : String}
    (h : part.setFileName file = .ok changed)
    (hPrintable :
      ∀ c ∈ file.toList, Disposition.IsPrintable c) :
    changed.headers.FindsFile file ↔
      (∀ c ∈ part.name.toList, c.toNat < 0x80) ∧
        (¬ "filename=".toList <:+ part.name.toList ∨
          file = "; filename=") := by
  rcases exists_of_setFileName h with
    ⟨value, hRead, hValues⟩
  have hFirst :
      changed.headers.get? .contentDisposition =
        some value := by
    unfold Headers.get?
    rw [hValues]
    rfl
  have hText := HeaderValue.decodeLenient_of_read hRead
  have hAscii : ∀ c ∈ file.toList, c.toNat < 0x80 :=
    fun c hMem =>
      Nat.lt_trans (hPrintable c hMem).2 (by decide)
  have hReadable :
      value.isReadable = true ↔
        ∀ c ∈ part.name.toList, c.toNat < 0x80 := by
    rw [HeaderValue.isReadable_iff_of_read hRead,
      Disposition.isAscii_contentDisposition_iff]
    exact and_iff_left hAscii
  unfold Headers.FindsFile
  rw [hFirst]
  simp only [Option.some_inj, exists_eq_left', hText,
    hReadable]
  rw [← Disposition.dispositionFileName?_eq_some_iff,
    Disposition.read_eq_file_iff]

/- The dispositions of an entity are those of its part. -/
theorem headers_of_entity
    {name : String}
    {body : Argument}
    {headers : Headers}
    {part : Part}
    (h : ofArgument name (.entity body headers) = .ok part)
    (hNamed : headers.contains .contentDisposition = true) :
    part.headers = headers := by
  rcases Fallible.bind_eq_ok h with
    ⟨converted, hConverted, hNameFile⟩
  rcases Fallible.bind_eq_ok hConverted with
    ⟨content, _, hPart⟩
  cases hPart
  cases content with
  | resource resource =>
      unfold nameFile at hNameFile
      dsimp only at hNameFile
      rw [if_pos hNamed] at hNameFile
      cases hNameFile
      rfl
  | _ =>
      cases hNameFile
      rfl

end Part

------------------------------------------------------------
-- File Names of All Parts
------------------------------------------------------------

/-
  A file name that a part is given is sent exactly if the
  value has the same name, or has none and the name is found
  in the headers.  Without a name that is given, the name of
  the value is sent exactly if there is one or none is found.
  A name that is set after a part was added is given, and it
  is found exactly if the name of the part is ASCII and does
  not mislead.  A part of an entity with a disposition has
  just the headers of the entity.
-/
theorem fileNames_of_encodeParts
    [KnownMedia]
    {parts : List Part}
    {encoded : List FormPart}
    (h : encodeParts parts = .ok encoded) :
    List.Forall₂
        (fun source form =>
          (∀ file, source.1.headers.GivesFile file →
            (form.fileName = some file ↔
              ownFileName? source.2 = some file ∨
                ownFileName? source.2 = none ∧
                  source.1.headers.FindsFile file)) ∧
            ((∀ file, ¬ source.1.headers.GivesFile file) →
              (form.fileName = ownFileName? source.2 ↔
                ownFileName? source.2 ≠ none ∨
                  ∀ file,
                    ¬ source.1.headers.FindsFile file)))
        (parts.flatMap Part.sources) encoded ∧
      (∀ (part changed : Part) (file : String),
        part.setFileName file = .ok changed →
        (∀ c ∈ file.toList, Disposition.IsPrintable c) →
        changed.headers.GivesFile file ∧
          (changed.headers.FindsFile file ↔
            (∀ c ∈ part.name.toList, c.toNat < 0x80) ∧
              (¬ "filename=".toList <:+ part.name.toList ∨
                file = "; filename="))) ∧
      (∀ name body headers part,
        Part.ofArgument name (.entity body headers) =
          .ok part →
        headers.contains .contentDisposition = true →
        part.headers = headers) := by
  refine ⟨?_, ?_, ?_⟩
  · have hSources :
        encoded = (parts.flatMap Part.sources).map
          fun source => source.1.encodedElement source.2 := by
      rw [eq_of_encodeParts h, List.map_flatMap]
      congr 1
      funext part
      exact part.encodedElements_eq
    rw [hSources, List.forall₂_map_right_iff,
      List.forall₂_same]
    intro source _
    exact ⟨fun file _ => Part.fileName_eq_some_iff _ _ file,
      fun _ => Part.fileName_eq_own_iff _ _⟩
  · intro part changed file hSet hPrintable
    exact ⟨Part.givesFile_of_setFileName hSet hPrintable,
      Part.findsFile_of_setFileName hSet hPrintable⟩
  · intro name body headers part hPart hNamed
    exact Part.headers_of_entity hPart hNamed

------------------------------------------------------------
-- Names With Quotes
------------------------------------------------------------

/- A part before its file is named. -/
def exported : Part :=
  ⟨"data", .empty, .text "a,b"⟩

/- The headers of a file name with a quote in it. -/
def quotedHeaders : Headers :=
  ⟨[(.contentDisposition,
    ⟨Text.encode (contentDisposition "data"
      (some "q\"1.csv"))⟩)]⟩

/- A part of an entity with these headers. -/
def imported : Part :=
  ⟨"data", quotedHeaders, .bytes [0x31]⟩

/- A part of a file that is not named otherwise. -/
def attached : Part :=
  ⟨"own", .empty, .resource ⟨[0x78], some "own.txt"⟩⟩

open CommonMedia

/- A name in headers is sent, and so is an own name. -/
theorem fileNames_of_imported :
    exported.setFileName "q\"1.csv" =
        .ok { exported with headers := quotedHeaders } ∧
      Part.ofArgument "data"
          (.entity (.bytes [0x31]) quotedHeaders) =
        .ok imported ∧
      ∃ first second,
        encodeParts [imported, attached] =
            .ok [first, second] ∧
          first.fileName = some "q\"1.csv" ∧
          second.fileName = some "own.txt" := by
  have hNamed :
      exported.setFileName "q\"1.csv" =
        .ok { exported with headers := quotedHeaders } :=
    rfl
  have hPart :
      Part.ofArgument "data"
          (.entity (.bytes [0x31]) quotedHeaders) =
        .ok imported :=
    rfl
  have hEncoded :
      encodeParts [imported, attached] =
        .ok [imported.encodedElement imported.content,
          attached.encodedElement attached.content] :=
    rfl
  rcases fileNames_of_encodeParts hEncoded with
    ⟨hNames, hSet, hEntity⟩
  rcases hSet _ _ _ hNamed
    (List.all_iff_forall_prop.mp (by decide)) with
    ⟨hGives, hFinds⟩
  have hFound := hFinds.mpr
    ⟨List.all_iff_forall_prop.mp (by decide),
      .inl (by decide)⟩
  have hKept : imported.headers = quotedHeaders :=
    hEntity _ _ _ _ hPart rfl
  rw [← hKept] at hGives hFound
  rcases hNames with
    _ | ⟨⟨hFirst, _⟩, _ | ⟨⟨_, hSecond⟩, _⟩⟩
  refine ⟨hNamed, hPart, _, _, hEncoded, ?_, ?_⟩
  · exact (hFirst _ hGives).mpr (.inr ⟨rfl, hFound⟩)
  · refine (hSecond ?_).mpr (.inl nofun)
    rintro file ⟨⟨value, hValue, _⟩, _⟩
    cases hValue

/- The own name of a resource is sent before one it gets. -/
theorem named_file_not_always_sent :
    ¬∀ (name file : String)
        (value : Argument)
        (parts : List Part)
        (encoded : List FormPart),
      (∀ c ∈ file.toList, Disposition.IsPrintable c) →
      addPart [] name value [.fileName file] =
        (parts, .ok ()) →
      encodeParts parts = .ok encoded →
      ∀ form ∈ encoded, form.fileName = some file := by
  intro hAll
  have hNamed := hAll "own" "a.txt" attached.content
    [{ attached with
      headers := ⟨[(.contentDisposition,
        ⟨Text.encode (contentDisposition "own"
          (some "a.txt"))⟩)]⟩ }]
    _ (List.all_iff_forall_prop.mp (by decide)) rfl rfl _
    List.mem_cons_self
  exact absurd hNamed (by decide)

end ServiceCalls
