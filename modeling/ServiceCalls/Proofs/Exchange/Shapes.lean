import ServiceCalls.Exchange.Encoding
import ServiceCalls.Proofs.Fallible

/-
  Values by their shapes.

  Which values have a JSON form, which can be sent, and the
  octets and the media type that they are sent with when no
  other one is declared.

  Key definitions include:
    * `HasJson`
    * `IsEncodable`
    * `Argument.defaultType`
    * `Argument.octets`

  Main declarations:
    * `toJson_of_hasJson` and `hasJson_of_toJson`
    * `encodeBytes_of_isEncodable`
    * `isEncodable_of_encodeBytes`
-/

namespace ServiceCalls

------------------------------------------------------------
-- Shapes
------------------------------------------------------------

/- A value that has a JSON form. -/
inductive HasJson : Argument → Prop where
| null :
    HasJson .null
| text
    (s : String) :
    HasJson (.text s)
| json
    (value : Json) :
    HasJson (.json value)
| uri
    (url : Url) :
    HasJson (.uri url)
| method
    (m : Method) :
    HasJson (.method m)
| list
    {items : List Argument}
    (h : ∀ item ∈ items, HasJson item) :
    HasJson (.list items)
| map
    {entries : List (String × Argument)}
    (h : ∀ entry ∈ entries, HasJson entry.2) :
    HasJson (.map entries)

/- A value that can be sent and is not null. -/
inductive IsEncodable : Argument → Prop where
| text
    (s : String) :
    IsEncodable (.text s)
| json
    (value : Json) :
    IsEncodable (.json value)
| bytes
    (content : Bytes) :
    IsEncodable (.bytes content)
| uri
    (url : Url) :
    IsEncodable (.uri url)
| method
    (m : Method) :
    IsEncodable (.method m)
| file
    (f : UploadFile) :
    IsEncodable (.file f)
| resource
    (r : Resource) :
    IsEncodable (.resource r)
| list
    {items : List Argument}
    (h : ∀ item ∈ items, HasJson item) :
    IsEncodable (.list items)
| map
    {entries : List (String × Argument)}
    (h : ∀ entry ∈ entries, HasJson entry.2) :
    IsEncodable (.map entries)

namespace Argument

/- The media type of a shape; what has no other is JSON. -/
def defaultType [KnownMedia] : Argument → String
  | .text _ => MediaType.plainText
  | .uri _ => MediaType.plainText
  | .method _ => MediaType.plainText
  | .bytes _ => MediaType.octetStream
  | .resource r => r.mediaType
  | .file f => f.mediaType.getD f.resource.mediaType
  | _ => MediaType.json

/- The octets of a value that can be sent. -/
def octets : Argument → Bytes
  | .text s => Text.encode s
  | .uri url => Text.encode url.render
  | .method m => Text.encode m.name
  | .bytes content => content
  | .resource r => r.content
  | .file f => f.content
  | argument =>
      match argument.toJson with
      | .ok value => Text.encode value.render
      | .error _ => []

end Argument

------------------------------------------------------------
-- JSON Forms
------------------------------------------------------------

theorem itemsToJson_eq (items : List Argument) :
    itemsToJson items = items.mapM Argument.toJson := by
  induction items with
  | nil => rfl
  | cons item rest ih =>
      rw [List.mapM_cons, ← ih]
      rfl

theorem entriesToJson_eq
    (entries : List (String × Argument)) :
    entriesToJson entries =
      entries.mapM fun entry =>
        entry.2.toJson.map fun value => (entry.1, value) := by
  induction entries with
  | nil => rfl
  | cons entry rest ih =>
      rw [List.mapM_cons, ← ih, entriesToJson]
      cases entry.2.toJson with
      | error error => rfl
      | ok value => rfl

theorem toJson_of_hasJson
    {a : Argument}
    (h : HasJson a) :
    ∃ value, a.toJson = .ok value := by
  induction h with
  | null => exact ⟨_, rfl⟩
  | text s => exact ⟨_, rfl⟩
  | json value => exact ⟨_, rfl⟩
  | uri url => exact ⟨_, rfl⟩
  | method m => exact ⟨_, rfl⟩
  | @list items h ih =>
      unfold Argument.toJson
      rw [Fallible.exists_map_ok, itemsToJson_eq,
        Fallible.exists_mapM_ok]
      exact ih
  | @map entries h ih =>
      unfold Argument.toJson
      rw [Fallible.exists_map_ok, entriesToJson_eq,
        Fallible.exists_mapM_ok]
      intro entry hMem
      rw [Fallible.exists_map_ok]
      exact ih entry hMem

/-
  The recursion is on the value: an item of a list and the
  value of an entry are smaller than what they are in.
-/
theorem hasJson_of_toJson :
    (a : Argument) → (∃ value, a.toJson = .ok value) →
      HasJson a
  | .null, _ => .null
  | .text s, _ => .text s
  | .json value, _ => .json value
  | .uri url, _ => .uri url
  | .method m, _ => .method m
  | .list items, h => by
      rw [Argument.toJson, Fallible.exists_map_ok,
        itemsToJson_eq, Fallible.exists_mapM_ok] at h
      exact .list fun item hMem =>
        hasJson_of_toJson item (h item hMem)
  | .map entries, h => by
      rw [Argument.toJson, Fallible.exists_map_ok,
        entriesToJson_eq, Fallible.exists_mapM_ok] at h
      refine .map fun entry hMem =>
        hasJson_of_toJson entry.2 ?_
      exact (Fallible.exists_map_ok _ _).mp (h entry hMem)
  | .bytes _, h => nomatch h
  | .file _, h => nomatch h
  | .resource _, h => nomatch h
  | .entity _ _, h => nomatch h
  | .deferred _, h => nomatch h
  | .stream _, h => nomatch h
termination_by a => sizeOf a
decreasing_by
  · have hItem := List.sizeOf_lt_of_mem hMem
    simp only [Argument.list.sizeOf_spec]
    omega
  · have hEntry := List.sizeOf_lt_of_mem hMem
    have hValue : sizeOf entry.2 < sizeOf entry := by
      rcases entry with ⟨key, value⟩
      simp only [Prod.mk.sizeOf_spec]
      omega
    simp only [Argument.map.sizeOf_spec]
    omega

------------------------------------------------------------
-- Octets
------------------------------------------------------------

variable [KnownMedia]

theorem shapeBytes_of_isEncodable
    {a : Argument}
    (h : IsEncodable a) :
    shapeBytes a = .ok (some (a.defaultType, a.octets)) := by
  cases h with
  | text s => rfl
  | json value => rfl
  | bytes content => rfl
  | uri url => rfl
  | method m => rfl
  | file f => rfl
  | resource r => rfl
  | list hItems =>
      rcases toJson_of_hasJson (.list hItems) with
        ⟨value, hValue⟩
      simp only [shapeBytes, Argument.octets, hValue]
      rfl
  | map hEntries =>
      rcases toJson_of_hasJson (.map hEntries) with
        ⟨value, hValue⟩
      simp only [shapeBytes, Argument.octets, hValue]
      rfl

theorem isEncodable_of_shapeBytes
    {a : Argument}
    {shaped : Option (String × Bytes)}
    (h : shapeBytes a = .ok shaped) :
    a = .null ∨ IsEncodable a := by
  cases a with
  | null => exact .inl rfl
  | text s => exact .inr (.text s)
  | json value => exact .inr (.json value)
  | bytes content => exact .inr (.bytes content)
  | uri url => exact .inr (.uri url)
  | method m => exact .inr (.method m)
  | file f => exact .inr (.file f)
  | resource r => exact .inr (.resource r)
  | list items =>
      rcases Fallible.bind_eq_ok h with ⟨value, hValue, _⟩
      cases hasJson_of_toJson _ ⟨value, hValue⟩ with
      | list hItems => exact .inr (.list hItems)
  | map entries =>
      rcases Fallible.bind_eq_ok h with ⟨value, hValue, _⟩
      cases hasJson_of_toJson _ ⟨value, hValue⟩ with
      | map hEntries => exact .inr (.map hEntries)
  | entity body headers => cases h
  | deferred result => cases h
  | stream results => cases h

/- A declared media type takes the place of that of a shape. -/
theorem encodeBytes_of_isEncodable
    {a : Argument}
    (h : IsEncodable a)
    (declared : Option String) :
    encodeBytes declared a =
      .ok (some
        (declared.getD a.defaultType, a.octets)) := by
  unfold encodeBytes
  rw [shapeBytes_of_isEncodable h]
  rfl

/- What has octets can be sent, and null has none. -/
theorem isEncodable_of_encodeBytes
    {a : Argument}
    {declared : Option String}
    {encoded : Option (String × Bytes)}
    (h : encodeBytes declared a = .ok encoded) :
    a = .null ∨ IsEncodable a := by
  rcases Fallible.bind_eq_ok h with ⟨shaped, hShaped, _⟩
  exact isEncodable_of_shapeBytes hShaped

end ServiceCalls
