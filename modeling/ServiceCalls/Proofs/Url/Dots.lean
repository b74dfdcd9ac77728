import ServiceCalls.Proofs.Http.HeaderText
import ServiceCalls.Proofs.Text.Percent
import ServiceCalls.Url.Parse

/-
  Segments that move within a path.

  A segment is left out or goes up exactly if one or two
  dots are read of it, plainly or in percent form.  No name
  in the path of a URL is read as dots.

  Key definitions include:
    * `Url.IsDot`
    * `Url.IsDots`
    * `Url.NoDots`

  Main declarations:
    * `Url.isSingleDot_iff`, `Url.isDoubleDot_iff`
    * `Url.isDots_percentDecode_iff`
    * `Url.noDots_parsePath`
-/

namespace ServiceCalls

namespace Url

------------------------------------------------------------
-- Dots
------------------------------------------------------------

/- A dot, plainly or in percent form. -/
def IsDot (s : List Char) : Prop :=
  s = ['.'] ∨ s = ['%', '2', 'e'] ∨ s = ['%', '2', 'E']

/- A character and that of lower case it stands for. -/
theorem of_toLower
    {c d : Char}
    (h : c.toLower = d) :
    c = d ∨ c.toNat + 32 = d.toNat ∧ 65 ≤ c.toNat ∧
      c.toNat ≤ 90 := by
  have hNat := toNat_toLower c
  rw [h] at hNat
  split at hNat
  · next hUpper => exact .inr ⟨hNat.symm, hUpper⟩
  · exact .inl (char_eq_of_toNat hNat.symm)

/- A character that is no lower case letter is itself. -/
theorem eq_of_toLower
    {c d : Char}
    (hOther : d.toNat < 97)
    (h : c.toLower = d) :
    c = d := by
  rcases of_toLower h with hSame | ⟨hNat, hLow, _⟩
  · exact hSame
  · omega

theorem map_toLower_eq_dot
    {s : List Char}
    (h : s.map Char.toLower = ['.']) :
    IsDot s := by
  rcases List.map_eq_singleton_iff.mp h with
    ⟨c, hSplit, hDot⟩
  rw [eq_of_toLower (by decide) hDot] at hSplit
  exact .inl hSplit

theorem map_toLower_eq_percent
    {s : List Char}
    (h : s.map Char.toLower = ['%', '2', 'e']) :
    IsDot s := by
  rcases List.map_eq_cons_iff.mp h with
    ⟨sign, digits, hSplit, hSign, hDigits⟩
  rcases List.map_eq_cons_iff.mp hDigits with
    ⟨two, last, hMore, hTwo, hLast⟩
  rcases List.map_eq_singleton_iff.mp hLast with
    ⟨c, hOne, hLetter⟩
  rw [eq_of_toLower (by decide) hSign, hMore,
    eq_of_toLower (by decide) hTwo, hOne] at hSplit
  rcases of_toLower hLetter with hSame | ⟨hNat, _, _⟩
  · rw [hSame] at hSplit
    exact .inr (.inl hSplit)
  · have hUpper : c = 'E' := by
      apply char_eq_of_toNat
      have hCode : 'e'.toNat = 101 := rfl
      have hOther : 'E'.toNat = 69 := rfl
      omega
    rw [hUpper] at hSplit
    exact .inr (.inr hSplit)

theorem ofList_eq_iff
    (s : List Char)
    (text : String) :
    String.ofList s = text ↔ s = text.toList := by
  constructor
  · intro h
    rw [← h, String.toList_ofList]
  · intro h
    rw [h, String.ofList_toList]

/- A segment that stays is a dot. -/
theorem isSingleDot_iff (s : List Char) :
    isSingleDot s = true ↔ IsDot s := by
  unfold isSingleDot
  simp only [List.contains_cons, List.contains_nil,
    Bool.or_false, Bool.or_eq_true, beq_iff_eq,
    ofList_eq_iff]
  constructor
  · intro h
    rcases h with hDot | hPercent
    · exact map_toLower_eq_dot hDot
    · exact map_toLower_eq_percent hPercent
  · intro h
    rcases h with h | h | h
    · subst h
      exact .inl rfl
    · subst h
      exact .inr rfl
    · subst h
      exact .inr rfl

/- A segment that goes up is two dots. -/
theorem isDoubleDot_iff (s : List Char) :
    isDoubleDot s = true ↔
      ∃ a b, s = a ++ b ∧ IsDot a ∧ IsDot b := by
  unfold isDoubleDot
  simp only [List.contains_cons, List.contains_nil,
    Bool.or_false, Bool.or_eq_true, beq_iff_eq,
    ofList_eq_iff]
  constructor
  · intro h
    have hBoth :
        ∃ a b,
          s.map Char.toLower = a ++ b ∧
          (a = ['.'] ∨ a = ['%', '2', 'e']) ∧
          (b = ['.'] ∨ b = ['%', '2', 'e']) := by
      rcases h with h | h | h | h
      · exact ⟨['.'], ['.'], h, .inl rfl, .inl rfl⟩
      · exact ⟨['.'], ['%', '2', 'e'], h, .inl rfl,
          .inr rfl⟩
      · exact ⟨['%', '2', 'e'], ['.'], h, .inr rfl,
          .inl rfl⟩
      · exact ⟨['%', '2', 'e'], ['%', '2', 'e'], h,
          .inr rfl, .inr rfl⟩
    rcases hBoth with ⟨a, b, hSplit, hA, hB⟩
    have hDot
        {t u : List Char}
        (hLower : t.map Char.toLower = u)
        (hForm : u = ['.'] ∨ u = ['%', '2', 'e']) :
        IsDot t := by
      subst hLower
      rcases hForm with hForm | hForm
      · exact map_toLower_eq_dot hForm
      · exact map_toLower_eq_percent hForm
    rcases List.map_eq_append_iff.mp hSplit with
      ⟨front, back, hParts, hFront, hBack⟩
    exact ⟨front, back, hParts, hDot hFront hA,
      hDot hBack hB⟩
  · rintro ⟨a, b, hSplit, hA, hB⟩
    subst hSplit
    rcases hA with hA | hA | hA <;>
      rcases hB with hB | hB | hB <;>
        · subst hA hB
          decide

------------------------------------------------------------
-- What Is Read of Dots
------------------------------------------------------------

theorem percentDecode_of_isDot
    {s : List Char}
    (h : IsDot s)
    (rest : Bytes) :
    Text.percentDecode (Text.encodeChars s ++ rest) =
      0x2E :: Text.percentDecode rest := by
  rcases h with h | h | h
  · subst h
    exact Text.percentDecode_cons (by decide) rest
  · subst h
    rfl
  · subst h
    rfl

/- The number of a digit, by the range of its code. -/
theorem of_hexValue?
    {c : Char}
    {n : Nat}
    (h : Text.hexValue? c = some n) :
    (48 ≤ c.toNat ∧ c.toNat ≤ 57 ∧ n = c.toNat - 48) ∨
      (65 ≤ c.toNat ∧ c.toNat ≤ 70 ∧ n = c.toNat - 55) ∨
      97 ≤ c.toNat ∧ c.toNat ≤ 102 ∧ n = c.toNat - 87 := by
  unfold Text.hexValue? at h
  split at h
  · next hRange =>
      exact .inl ⟨hRange.1, hRange.2,
        (Option.some.inj h).symm⟩
  split at h
  · next hRange =>
      exact .inr (.inl ⟨hRange.1, hRange.2,
        (Option.some.inj h).symm⟩)
  split at h
  · next hRange =>
      exact .inr (.inr ⟨hRange.1, hRange.2,
        (Option.some.inj h).symm⟩)
  · cases h

/- Two digits that stand for a dot. -/
theorem of_hexValue?_dot
    {high low : Char}
    {hv lv : Nat}
    (hHigh : Text.hexValue? high = some hv)
    (hLow : Text.hexValue? low = some lv)
    (h : (0x2E : UInt8) = UInt8.ofNat (hv * 16 + lv)) :
    high = '2' ∧ (low = 'e' ∨ low = 'E') := by
  have hNat := congrArg UInt8.toNat h
  rw [UInt8.toNat_ofNat'] at hNat
  change 46 = (hv * 16 + lv) % 256 at hNat
  have hFirst := of_hexValue? hHigh
  have hSecond := of_hexValue? hLow
  have hTwo : '2'.toNat = 50 := rfl
  have hSmall : 'e'.toNat = 101 := rfl
  have hCapital : 'E'.toNat = 69 := rfl
  refine ⟨char_eq_of_toNat (by omega), ?_⟩
  by_cases hLetter : low.toNat = 101
  · exact .inl (char_eq_of_toNat (by omega))
  · exact .inr (char_eq_of_toNat (by omega))

/- An octet of a digit is that digit. -/
theorem lt_of_hexValue?
    {b : UInt8}
    {n : Nat}
    (h : Text.hexValue? (Char.ofNat b.toNat) = some n) :
    b < 0x80 := by
  have hRange := of_hexValue? h
  rw [Text.toNat_ofNat_toNat] at hRange
  rw [UInt8.lt_iff_toNat_lt]
  change b.toNat < 128
  omega

/- A dot that is read stands at the start. -/
theorem of_percentDecode_dot
    {s : List Char}
    {out : Bytes}
    (h :
      Text.percentDecode (Text.encodeChars s) =
        0x2E :: out) :
    ∃ a b,
      s = a ++ b ∧ IsDot a ∧
      Text.percentDecode (Text.encodeChars b) = out := by
  rcases Text.of_percentDecode_cons h with
    ⟨rest, hOctets, hOut⟩ |
    ⟨high, low, hv, lv, rest, hOctets, hHigh, hLow, hValue,
      hOut⟩
  · rcases Text.of_encodeChars_cons (by decide) hOctets with
      ⟨more, hSplit, hMore⟩
    refine ⟨['.'], more, hSplit, .inl rfl, ?_⟩
    rw [hMore]
    exact hOut
  · rcases Text.of_encodeChars_cons (by decide) hOctets with
      ⟨digits, hSplit, hDigits⟩
    rcases Text.of_encodeChars_cons (lt_of_hexValue? hHigh)
        hDigits with ⟨second, hFirst, hSecond⟩
    rcases Text.of_encodeChars_cons (lt_of_hexValue? hLow)
        hSecond with ⟨more, hLast, hMore⟩
    rcases of_hexValue?_dot hHigh hLow hValue with
      ⟨hTwo, hLetter⟩
    rw [hFirst, hLast, hTwo] at hSplit
    rw [← hMore] at hOut
    rcases hLetter with hSmall | hCapital
    · rw [hSmall] at hSplit
      exact ⟨['%', '2', 'e'], more, hSplit, .inr (.inl rfl),
        hOut⟩
    · rw [hCapital] at hSplit
      exact ⟨['%', '2', 'E'], more, hSplit, .inr (.inr rfl),
        hOut⟩

theorem eq_nil_of_percentDecode
    {bytes : Bytes}
    (h : Text.percentDecode bytes = []) :
    bytes = [] := by
  fun_cases Text.percentDecode bytes with
  | case1 => rfl
  | case2 high low rest hv lv hLow hHigh =>
      rw [Text.percentDecode, hHigh, hLow] at h
      cases h
  | case3 high low rest hNot =>
      rw [Text.percentDecode] at h
      split at h <;> cases h
  | case4 first rest hNot =>
      rw [Text.percentDecode] at h
      · cases h
      · exact hNot

/- One or two dots, as octets. -/
def IsDots (bytes : Bytes) : Prop :=
  bytes = [0x2E] ∨ bytes = [0x2E, 0x2E]

/- Dots are read of the segments that move. -/
theorem isDots_percentDecode_iff (s : List Char) :
    IsDots (Text.percentDecode (Text.encodeChars s)) ↔
      isSingleDot s = true ∨ isDoubleDot s = true := by
  rw [isSingleDot_iff, isDoubleDot_iff]
  constructor
  · intro h
    rcases h with hOne | hTwo
    · rcases of_percentDecode_dot hOne with
        ⟨a, b, hSplit, hDot, hRest⟩
      rw [Text.encodeChars_eq_nil
        (eq_nil_of_percentDecode hRest), List.append_nil]
        at hSplit
      rw [hSplit]
      exact .inl hDot
    · rcases of_percentDecode_dot hTwo with
        ⟨a, b, hSplit, hDot, hRest⟩
      rcases of_percentDecode_dot hRest with
        ⟨c, d, hMore, hOther, hLast⟩
      rw [Text.encodeChars_eq_nil
        (eq_nil_of_percentDecode hLast), List.append_nil]
        at hMore
      rw [hMore] at hSplit
      exact .inr ⟨a, c, hSplit, hDot, hOther⟩
  · intro h
    rcases h with hOne | ⟨a, b, hSplit, hA, hB⟩
    · have hRead := percentDecode_of_isDot hOne []
      rw [List.append_nil] at hRead
      exact .inl hRead
    · have hRead := percentDecode_of_isDot hB []
      rw [List.append_nil] at hRead
      rw [hSplit, Text.encodeChars_append,
        percentDecode_of_isDot hA, hRead]
      exact .inr rfl

------------------------------------------------------------
-- Paths Without Dots
------------------------------------------------------------

theorem of_escapedInPath
    {c : Char}
    (h : escapedInPath c = true) :
    c ≠ '%' ∧ Text.hexValue? c = none := by
  have hAscii :
      ∀ n < 128, escapedInPath (Char.ofNat n) = true →
        Char.ofNat n ≠ '%' ∧
          Text.hexValue? (Char.ofNat n) = none := by
    decide
  by_cases hLow : c.toNat < 128
  · have hSame := hAscii c.toNat hLow
    rw [Char.ofNat_toNat] at hSame
    exact hSame h
  · have hNot : c ≠ '%' := by
      intro hSame
      subst hSame
      exact hLow (by decide)
    exact ⟨hNot, Text.hexValue?_of_le (Nat.not_lt.mp hLow)⟩

/- No name of a path is read as dots. -/
def NoDots (path : List String) : Prop :=
  ∀ name ∈ path,
    ¬IsDots (Text.percentDecode (Text.encode name))

/- A segment that does not move is not read as dots. -/
theorem not_isDots_escape
    {segment : List Char}
    (hSingle : isSingleDot segment = false)
    (hDouble : isDoubleDot segment = false) :
    ¬IsDots (Text.percentDecode
      (Text.encode (escape escapedInPath segment))) := by
  intro hDots
  unfold escape Text.encode at hDots
  rw [String.toList_ofList,
    Text.percentDecode_escapeChars
      (fun _ => of_escapedInPath),
    isDots_percentDecode_iff, hSingle, hDouble] at hDots
  rcases hDots with hDots | hDots <;> cases hDots

theorem noDots_append
    {path more : List String}
    (hPath : NoDots path)
    (hMore : NoDots more) :
    NoDots (path ++ more) := by
  intro name hName
  rcases List.mem_append.mp hName with hFirst | hSecond
  · exact hPath name hFirst
  · exact hMore name hSecond

theorem noDots_singleton
    {name : String}
    (h :
      ¬IsDots (Text.percentDecode (Text.encode name))) :
    NoDots [name] := by
  intro other hOther
  rw [List.mem_singleton.mp hOther]
  exact h

theorem noDots_empty : NoDots [""] := by
  apply noDots_singleton
  intro hDots
  rcases hDots with hDots | hDots <;> cases hDots

theorem noDots_shorten
    (file : Bool)
    {path : List String}
    (h : NoDots path) :
    NoDots (shorten file path) := by
  intro name hName
  apply h
  unfold shorten at hName
  split at hName
  · split at hName
    · exact hName
    · cases hName
  · exact List.dropLast_subset _ hName

theorem IsDot.not_mem_colon
    {s : List Char}
    (h : IsDot s) :
    ':' ∉ s := by
  rcases h with h | h | h
  all_goals
    subst h
    decide

/- A drive letter is no dots. -/
theorem not_isDots_drive (letter : Char) :
    isSingleDot [letter, ':'] = false ∧
      isDoubleDot [letter, ':'] = false := by
  have hColon : ':' ∈ [letter, ':'] := by simp
  constructor
  · rw [Bool.eq_false_iff]
    intro hSingle
    exact ((isSingleDot_iff _).mp hSingle).not_mem_colon
      hColon
  · rw [Bool.eq_false_iff]
    intro hDouble
    rcases (isDoubleDot_iff _).mp hDouble with
      ⟨a, b, hSplit, hA, hB⟩
    rw [hSplit, List.mem_append] at hColon
    rcases hColon with hColon | hColon
    · exact hA.not_mem_colon hColon
    · exact hB.not_mem_colon hColon

theorem noDots_addSegment
    (file : Bool)
    {path : List String}
    (h : NoDots path)
    {segment : List Char}
    (hSingle : isSingleDot segment = false)
    (hDouble : isDoubleDot segment = false) :
    NoDots (addSegment file path segment) := by
  unfold addSegment
  apply noDots_append h
  apply noDots_singleton
  split
  · next hDrive =>
      rw [Bool.and_eq_true] at hDrive
      unfold isDriveLetter at hDrive
      split at hDrive
      · next letter mark =>
          rcases not_isDots_drive letter with
            ⟨hOne, hTwo⟩
          exact not_isDots_escape hOne hTwo
      · exact absurd hDrive.2 Bool.false_ne_true
  · exact not_isDots_escape hSingle hDouble

theorem noDots_addSegments
    (file : Bool)
    {path : List String}
    (h : NoDots path)
    (segments : List (List Char)) :
    NoDots (addSegments file path segments) := by
  fun_induction addSegments file path segments with
  | case1 path => exact h
  | case2 path last hDouble =>
      exact noDots_append (noDots_shorten file h)
        noDots_empty
  | case3 path last hDouble hSingle =>
      exact noDots_append h noDots_empty
  | case4 path last hDouble hSingle =>
      rw [Bool.not_eq_true] at hDouble hSingle
      exact noDots_addSegment file h hSingle hDouble
  | case5 path segment rest hRest hDouble ih =>
      exact ih (noDots_shorten file h)
  | case6 path segment rest hRest hDouble hSingle ih =>
      exact ih h
  | case7 path segment rest hRest hDouble hSingle ih =>
      rw [Bool.not_eq_true] at hDouble hSingle
      exact ih (noDots_addSegment file h hSingle hDouble)

/- No name in the path of a text is read as dots. -/
theorem noDots_parsePath
    (special file : Bool)
    (text : List Char) :
    NoDots (parsePath special file text) := by
  have hNone : NoDots [] := by
    intro name hName
    cases hName
  have hSegments
      (rest : List Char) :
      NoDots (parseSegments special file rest) := by
    have hAll := noDots_addSegments file hNone
      (Text.splitBy (isSlash special) rest)
    unfold parseSegments
    dsimp only
    split
    · split
      · exact noDots_empty
      · intro name hName
        apply hAll
        exact (List.dropWhile_suffix _).subset hName
    · exact hAll
  unfold parsePath
  split
  · split
    · exact noDots_empty
    · exact hNone
  · split
    · exact hSegments _
    · exact hSegments _

end Url

end ServiceCalls
