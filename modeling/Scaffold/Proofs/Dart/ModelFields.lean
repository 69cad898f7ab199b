import Scaffold.Dart.Model
import Scaffold.Proofs.Text.Integer
import Scaffold.Text.Alphanumeric
import Mathlib.Data.List.Forall2

/-!
# Fields of models

Which type a property gets from its schema is stated by the rules `Describes`, one for each kind of
schema; `FieldType.ofSchema` follows them on all schemas, mistyped ones included
(`describes_iff`). `models_constructible` says that a model has one field for each property, in
order, and that each field is required or has a literal of its own type as default.
-/

namespace Scaffold

variable {fields : Fields} {schema value : Value} {type item : FieldType} {text word literal : Text}
  {isResponse : Bool}

/-! ## Types of schemas -/

namespace FieldType

/-- The schema is no reference, and its keyword for the type is the word. -/
structure HasKind (fields : Fields) (word : Text) : Prop where
  noReference : fields.get? "$ref" = none
  type : fields.get "type" = .text word

/-- The words that stand for types without parts. -/
def plainWords : List (Text × FieldType) :=
  [("integer", int), ("number", double), ("boolean", bool), ("object", map)]

/-- The type that a schema describes. A list takes the type of its items from their schema, if that
is a mapping; a reference ends the nesting, and so does all that is no array. -/
inductive Describes : Value → FieldType → Prop
  | reference {fields : Fields} : fields.get? "$ref" ≠ none → Describes (.map fields) map
  | plain {fields : Fields} {word : Text} {type : FieldType} : HasKind fields word →
      (word, type) ∈ plainWords → Describes (.map fields) type
  | list {fields items : Fields} {item : FieldType} : HasKind fields "array" →
      fields.get "items" = .map items → Describes (.map items) item →
      Describes (.map fields) (list item)
  | anyList {fields : Fields} : HasKind fields "array" → (∀ items, fields.get "items" ≠ .map items) →
      Describes (.map fields) anyList
  | unknown {fields : Fields} : fields.get? "$ref" = none →
      (∀ word ∈ ("array" : Text) :: plainWords.map (·.1), fields.get "type" ≠ .text word) →
      Describes (.map fields) string
  | noSchema {schema : Value} : (∀ fields, schema ≠ .map fields) → Describes schema string

theorem get_cons_of_ne {key : Scalar} {rest : Fields} (h : key ≠ .text word) :
    Fields.get ((key, value) :: rest) word = Fields.get rest word := by
  simp [Fields.get, Fields.get?, h]

/-- The type of the items is that of their schema. -/
theorem ofItems_eq (fields : Fields) :
    ofItems fields = (fields.get "items").fields?.map fun items => ofSchema (.map items) := by
  induction fields with
  | nil => rfl
  | cons field rest ih =>
      obtain ⟨key, value⟩ := field
      by_cases hkey : key = .text "items"
      · subst hkey
        cases value <;> rfl
      · rw [get_cons_of_ne hkey, ofItems.eq_def]
        exact (if_neg hkey).trans ih

theorem text?_eq_some (h : value.text? = some word) : value = .text word := by
  match value, h with
  | .scalar (.text _), rfl => rfl

theorem ofKeywords_reference (h : fields.get? "$ref" ≠ none) (found : Option FieldType) :
    ofKeywords fields found = map := by
  rw [ofKeywords.eq_def]
  exact if_pos (Option.isSome_iff_ne_none.2 h)

theorem ofKeywords_of_no_word (href : fields.get? "$ref" = none)
    (htype : (fields.get "type").text? = none) (found : Option FieldType) :
    ofKeywords fields found = string := by
  rw [ofKeywords.eq_def, href, htype]
  rfl

theorem ofKeywords_of_kind (h : HasKind fields word) (found : Option FieldType) :
    ofKeywords fields found =
      if word = "integer" then int
      else if word = "number" then double
      else if word = "boolean" then bool
      else if word = "array" then found.elim anyList list
      else if word = "object" then map
      else string := by
  rw [ofKeywords.eq_def, h.noReference, h.type]
  cases found <;> rfl

theorem ofKeywords_array (h : HasKind fields "array") (found : Option FieldType) :
    ofKeywords fields found = found.elim anyList list := by
  rw [ofKeywords_of_kind h, if_neg (by decide), if_neg (by decide), if_neg (by decide), if_pos rfl]

theorem ofKeywords_plain (h : HasKind fields word) (hword : (word, type) ∈ plainWords)
    (found : Option FieldType) : ofKeywords fields found = type := by
  rw [ofKeywords_of_kind h]
  simp only [plainWords, List.mem_cons, Prod.mk.injEq, List.not_mem_nil, or_false] at hword
  rcases hword with ⟨rfl, rfl⟩ | ⟨rfl, rfl⟩ | ⟨rfl, rfl⟩ | ⟨rfl, rfl⟩
  · rfl
  · rfl
  · rfl
  · rfl

theorem ofKeywords_unknown (href : fields.get? "$ref" = none)
    (hwords : ∀ word ∈ ("array" : Text) :: plainWords.map (·.1), fields.get "type" ≠ .text word)
    (found : Option FieldType) : ofKeywords fields found = string := by
  cases htype : (fields.get "type").text? with
  | none => exact ofKeywords_of_no_word href htype found
  | some word =>
      have hword := text?_eq_some htype
      have hne : ∀ other ∈ ("array" : Text) :: plainWords.map (·.1), word ≠ other := by
        rintro other hother rfl
        exact hwords word hother hword
      rw [ofKeywords_of_kind ⟨href, hword⟩, if_neg (hne _ (by decide)), if_neg (hne _ (by decide)),
        if_neg (hne _ (by decide)), if_neg (hne _ (by decide)), if_neg (hne _ (by decide))]

/-- A schema with keywords describes its type, if the schema of its items does. -/
theorem describes_of_items
    (h : ∀ items, fields.get "items" = .map items → Describes (.map items) (ofSchema (.map items))) :
    Describes (.map fields) (ofSchema (.map fields)) := by
  rw [ofSchema]
  by_cases href : fields.get? "$ref" = none
  · by_cases harray : fields.get "type" = .text "array"
    · have hkind : HasKind fields "array" := ⟨href, harray⟩
      rw [ofKeywords_array hkind, ofItems_eq]
      cases hitems : fields.get "items" with
      | map items => exact .list hkind hitems (h items hitems)
      | scalar value => exact .anyList hkind fun items heq => by cases hitems.symm.trans heq
      | list values => exact .anyList hkind fun items heq => by cases hitems.symm.trans heq
    · by_cases hword : ∃ pair ∈ plainWords, fields.get "type" = .text pair.1
      · obtain ⟨⟨word, type⟩, hmem, htype⟩ := hword
        have hkind : HasKind fields word := ⟨href, htype⟩
        rw [ofKeywords_plain hkind hmem]
        exact .plain hkind hmem
      · have hwords : ∀ word ∈ ("array" : Text) :: plainWords.map (·.1),
            fields.get "type" ≠ .text word := by
          refine List.forall_mem_cons.2 ⟨harray, fun word hmem heq => ?_⟩
          obtain ⟨pair, hpair, rfl⟩ := List.mem_map.1 hmem
          exact hword ⟨pair, hpair, heq⟩
        rw [ofKeywords_unknown href hwords]
        exact .unknown href hwords
  · rw [ofKeywords_reference href]
    exact .reference href

/-- Every schema describes the type that it is given: the recursion goes into the schemas of items. -/
theorem describes_ofSchema (schema : Value) : Describes schema (ofSchema schema) := by
  refine ofSchema.induct (fun schema => Describes schema (ofSchema schema))
    (fun fields => ∀ items, Fields.get fields "items" = .map items →
      Describes (.map items) (ofSchema (.map items))) ?_ ?_ ?_ ?_ ?_ ?_ schema
  · exact fun fields ih => describes_of_items ih
  · intro schema hschema
    rw [ofSchema]
    · exact .noSchema hschema
    · exact hschema
  · nofun
  · intro rest fields ih items hitems
    obtain rfl : fields = items := Value.map.inj hitems
    exact ih
  · intro value rest hvalue items hitems
    exact absurd hitems (hvalue items)
  · intro key value rest hkey ih items hitems
    rw [get_cons_of_ne hkey] at hitems
    exact ih items hitems

/-- A schema has the type that it describes. -/
theorem Describes.ofSchema_eq (h : Describes schema type) : ofSchema schema = type := by
  induction h with
  | reference href => exact ofKeywords_reference href _
  | plain hkind hword => exact ofKeywords_plain hkind hword _
  | list hkind hitems _ ih =>
      rw [ofSchema, ofKeywords_array hkind, ofItems_eq, hitems]
      exact congrArg FieldType.list ih
  | @anyList fields hkind hno =>
      have hitems : (fields.get "items").fields? = none := by
        cases hget : fields.get "items" with
        | map items => exact absurd hget (hno items)
        | scalar value => rfl
        | list values => rfl
      rw [ofSchema, ofKeywords_array hkind, ofItems_eq, hitems]
      rfl
  | unknown href hwords => exact ofKeywords_unknown href hwords _
  | @noSchema schema hno =>
      cases schema with
      | map fields => exact absurd rfl (hno fields)
      | scalar value => rfl
      | list values => rfl

/-- The type of a schema is the one that the rules give. -/
theorem describes_iff : Describes schema type ↔ ofSchema schema = type :=
  ⟨Describes.ofSchema_eq, fun h => h ▸ describes_ofSchema schema⟩

theorem text_ne_dynamic (type : FieldType) : type.text ≠ "dynamic" := by
  cases type with
  | list item => exact fun h => absurd (List.cons.inj h).1 (by decide)
  | _ => decide

/-- The text of a type gives the type away. -/
theorem text_injective : Function.Injective FieldType.text := by
  intro one
  induction one with
  | list item ih =>
      intro other h
      cases other with
      | list item' => exact congrArg _ (ih (List.append_cancel_left (List.append_cancel_right h)))
      | anyList =>
          have hcut : "List<" ++ item.text ++ ">" = ("List<" ++ "dynamic" ++ ">" : Text) := h
          exact absurd (List.append_cancel_left (List.append_cancel_right hcut))
            (text_ne_dynamic item)
      | _ => exact absurd (List.cons.inj h).1 (by decide)
  | anyList =>
      intro other h
      cases other with
      | list item =>
          have hcut : ("List<" ++ "dynamic" ++ ">" : Text) = "List<" ++ item.text ++ ">" := h
          exact absurd (List.append_cancel_left (List.append_cancel_right hcut)).symm
            (text_ne_dynamic item)
      | anyList => rfl
      | _ => exact absurd h (by decide)
  | _ =>
      intro other h
      cases other with
      | list item => exact absurd (List.cons.inj h).1 (by decide)
      | _ => first | rfl | exact absurd h (by decide)

end FieldType

/-! ## Defaults -/

/-- Literals that a field of a type can have: digits, digits around a point, truth values, texts in
double quotes that need no escapes, and empty lists and mappings. -/
inductive IsLiteral : FieldType → Text → Prop
  | int (n : Nat) : IsLiteral .int (Text.ofNat n)
  | double (n m : Nat) : IsLiteral .double (Text.ofNat n ++ "." ++ Text.ofNat m)
  | bool (value : Bool) : IsLiteral .bool (if value then "true" else "false")
  | string {content : Text} (h : ∀ c ∈ content, isWordChar c = true) :
      IsLiteral .string ("\"" ++ content ++ "\"")
  | map : IsLiteral .map "\x7b\x7d"
  | anyList : IsLiteral .anyList "[]"
  | list (item : FieldType) : IsLiteral (.list item) "[]"

/-- The default of a type is a literal of that type. -/
theorem isLiteral_defaultLiteral (type : FieldType) : IsLiteral type (defaultLiteral type.text) := by
  cases type with
  | int => exact .int 0
  | double => exact .double 0 0
  | bool => exact .bool false
  | string => exact .string (List.forall_mem_nil _)
  | map => exact .map
  | anyList => exact .anyList
  | list item =>
      have hstarts : Text.startsWith (FieldType.list item).text "List<" = true := rfl
      rw [defaultLiteral, hstarts]
      exact .list item

/-- How a literal can start. -/
theorem IsLiteral.head (h : IsLiteral type literal) :
    ∃ c rest, literal = c :: rest ∧ (c.isDigit = true ∨ c ∈ ['t', 'f', '"', '\x7b', '[']) := by
  have hdigits : ∀ (n : Nat) (tail : Text), ∃ c rest, Text.ofNat n ++ tail = c :: rest ∧
      (c.isDigit = true ∨ c ∈ ['t', 'f', '"', '\x7b', '[']) := by
    intro n tail
    obtain ⟨c, rest, hcons⟩ := List.exists_cons_of_ne_nil (Text.ofNat_ne_nil n)
    exact ⟨c, rest ++ tail, by rw [hcons]; rfl,
      .inl (Text.isDigit_of_mem_ofNat (hcons ▸ List.mem_cons_self))⟩
  cases h with
  | int n => simpa using hdigits n []
  | double n m => simpa using hdigits n ("." ++ Text.ofNat m)
  | bool value =>
      cases value with
      | true => exact ⟨'t', "rue", rfl, .inr (by decide)⟩
      | false => exact ⟨'f', "alse", rfl, .inr (by decide)⟩
  | string h => exact ⟨'"', _, rfl, .inr (by decide)⟩
  | map => exact ⟨'\x7b', "\x7d", rfl, .inr (by decide)⟩
  | anyList => exact ⟨'[', "]", rfl, .inr (by decide)⟩
  | list item => exact ⟨'[', "]", rfl, .inr (by decide)⟩

/-- Null is no literal of any type. -/
theorem IsLiteral.ne_null (h : IsLiteral type literal) : literal ≠ "null" := by
  rintro rfl
  obtain ⟨c, rest, heq, hc⟩ := h.head
  obtain rfl : 'n' = c := (List.cons.inj heq).1
  exact absurd hc (by decide)

/-! ## Fields -/

/-- The properties of a schema; without a schema, or with something else in their place, there are
none. -/
def propertiesOf (schema : Option Fields) : Fields :=
  (schema.bind fun schema => (schema.get "properties").fields?).getD []

/-- The name is one of the texts in the list of required names. -/
def IsRequired (schema : Option Fields) (name : Scalar) : Prop :=
  ∃ fields names word, schema = some fields ∧ fields.get "required" = .list names ∧
    name = .text word ∧ .text word ∈ names

/-- What the line of a property is: required with the type that its schema describes, or else with a
literal of that type as default. -/
inductive IsFieldOf (schema : Option Fields) : Scalar × Value → Text → Prop
  | required {name : Scalar} {value : Value} {type : FieldType} : IsRequired schema name →
      FieldType.Describes value type →
      IsFieldOf schema (name, value) ("    required " ++ type.text ++ " " ++ name.display ++ ",")
  | default {name : Scalar} {value : Value} {type : FieldType} {literal : Text} :
      ¬ IsRequired schema name → FieldType.Describes value type → IsLiteral type literal →
      literal = defaultLiteral type.text →
      IsFieldOf schema (name, value)
        ("    @Default(" ++ literal ++ ") " ++ type.text ++ " " ++ name.display ++ ",")

theorem mem_requiredNames {schema : Fields} :
    word ∈ requiredNames schema ↔
      ∃ names, schema.get "required" = .list names ∧ Value.text word ∈ names := by
  rw [requiredNames]
  split
  · next names hnames =>
    rw [List.mem_filterMap]
    constructor
    · rintro ⟨value, hmem, htext⟩
      exact ⟨names, hnames, FieldType.text?_eq_some htext ▸ hmem⟩
    · rintro ⟨other, hother, hmem⟩
      obtain rfl := Value.list.inj (hnames.symm.trans hother)
      exact ⟨.text word, hmem, rfl⟩
  · next hno =>
    simp only [List.not_mem_nil, false_iff]
    rintro ⟨names, hnames, -⟩
    exact hno names hnames

/-- The line of a property is required if the name is, and has a default otherwise. -/
theorem isFieldOf_propertyField (schema : Fields) (name : Scalar) (value : Value) :
    IsFieldOf (some schema) (name, value) (propertyField (requiredNames schema) name value) := by
  have htype := FieldType.describes_ofSchema value
  have hdefault : ¬ IsRequired (some schema) name → IsFieldOf (some schema) (name, value)
      ("    @Default(" ++ defaultLiteral (FieldType.ofSchema value).text ++ ") " ++
        (FieldType.ofSchema value).text ++ " " ++ name.display ++ ",") :=
    fun hno => .default hno htype (isLiteral_defaultLiteral _) rfl
  cases name with
  | text word =>
      have hiff : IsRequired (some schema) (.text word) ↔ word ∈ requiredNames schema := by
        rw [mem_requiredNames]
        constructor
        · rintro ⟨fields, names, other, hfields, hnames, hword, hmem⟩
          obtain rfl := Option.some.inj hfields
          obtain rfl := Scalar.text.inj hword
          exact ⟨names, hnames, hmem⟩
        · rintro ⟨names, hnames, hmem⟩
          exact ⟨schema, names, word, rfl, hnames, rfl, hmem⟩
      rw [propertyField]
      by_cases hmem : word ∈ requiredNames schema
      · rw [if_pos (List.contains_iff_mem.2 hmem)]
        exact .required (hiff.2 hmem) htype
      · rw [if_neg (mt List.contains_iff_mem.1 hmem)]
        exact hdefault (mt hiff.1 hmem)
  | _ =>
      refine hdefault ?_
      rintro ⟨_, _, _, _, _, hword, _⟩
      cases hword

theorem defaultLiteral_eq_cons (type : FieldType) :
    ∃ c rest, defaultLiteral type.text = c :: rest ∧ c ≠ 't' := by
  cases type with
  | list item =>
      have hstarts : Text.startsWith (FieldType.list item).text "List<" = true := rfl
      exact ⟨'[', "]", by rw [defaultLiteral, hstarts]; rfl, by decide⟩
  | _ => exact ⟨_, _, rfl, by decide⟩

/-- No property has the second line of the envelope, whose default is true. -/
theorem IsFieldOf.ne_success {schema : Option Fields} {property : Scalar × Value} {line : Text}
    (h : IsFieldOf schema property line) : line ≠ "    @Default(true) bool success," := by
  intro heq
  cases h with
  | required _ _ =>
      have hfifth := congrArg (fun line => (List.drop 4 line).head?) heq
      exact absurd (Option.some.inj hfifth) (by decide)
  | @default name value type literal _ _ _ hliteral =>
      obtain ⟨c, rest, hcons, hc⟩ := defaultLiteral_eq_cons type
      rw [hliteral, hcons] at heq
      have hhead := congrArg (fun line => (List.drop 13 line).head?) heq
      exact hc (Option.some.inj hhead)

theorem propertyFields_eq (schema : Fields) :
    propertyFields schema = (propertiesOf (some schema)).map fun property =>
      propertyField (requiredNames schema) property.1 property.2 := by
  rw [propertyFields, propertiesOf, Option.bind_some]
  cases schema.get "properties" <;> rfl

/-- The lines of a model are those of its properties, if there are any. -/
theorem modelFields_of_properties {schema : Fields} (h : propertiesOf (some schema) ≠ []) :
    modelFields (some schema) isResponse = (propertiesOf (some schema)).map fun property =>
      propertyField (requiredNames schema) property.1 property.2 := by
  have hne : (propertyFields schema).isEmpty = false := by
    rw [propertyFields_eq, List.isEmpty_eq_false_iff]
    exact mt List.map_eq_nil_iff.1 h
  rw [modelFields, Option.map_some, Option.getD_some, hne, if_neg Bool.false_ne_true,
    propertyFields_eq]

theorem modelFields_of_no_properties {schema : Option Fields} (h : propertiesOf schema = []) :
    modelFields schema isResponse = envelopeFields isResponse := by
  cases schema with
  | none => rfl
  | some schema =>
      rw [modelFields, Option.map_some, Option.getD_some, propertyFields_eq, h]
      rfl

/-- A model has one line for each property, in order. -/
theorem forall₂_modelFields {schema : Option Fields} (h : propertiesOf schema ≠ []) :
    List.Forall₂ (IsFieldOf schema) (propertiesOf schema) (modelFields schema isResponse) := by
  cases schema with
  | none => exact absurd rfl h
  | some schema =>
      rw [modelFields_of_properties h, List.forall₂_map_right_iff, List.forall₂_same]
      exact fun property _ => isFieldOf_propertyField schema property.1 property.2

/-- The envelope stands for a body without properties, and only for such a one. -/
theorem modelFields_eq_envelopeFields_iff {schema : Option Fields} :
    modelFields schema isResponse = envelopeFields isResponse ↔ propertiesOf schema = [] := by
  refine ⟨fun heq => by_contra fun hne => ?_, modelFields_of_no_properties⟩
  cases schema with
  | none => exact hne rfl
  | some schema =>
      have hsuccess : ("    @Default(true) bool success," : Text) ∈ envelopeFields isResponse :=
        List.mem_cons_of_mem _ List.mem_cons_self
      rw [← heq, modelFields_of_properties hne] at hsuccess
      obtain ⟨property, -, hline⟩ := List.mem_map.1 hsuccess
      exact (isFieldOf_propertyField schema property.1 property.2).ne_success hline

/-- The file of a model up to its first field. -/
def modelOpening (name : Text) : Text :=
  Text.lines [
    "import 'package:freezed_annotation/freezed_annotation.dart';",
    [],
    "part '" ++ name.snake ++ ".freezed.dart';",
    "part '" ++ name.snake ++ ".g.dart';",
    [],
    "@freezed",
    "class " ++ name ++ " with _$" ++ name ++ " \x7b",
    "  const factory " ++ name ++ "(\x7b"]

/-- The file of a model behind its last field. -/
def modelClosing (name : Text) : Text :=
  Text.lines [
    [],
    "  \x7d) = _" ++ name ++ ";",
    [],
    "  factory " ++ name ++ ".fromJson(Map<String, dynamic> json) =>",
    "      _$" ++ name ++ "FromJson(json);",
    "\x7d"]

theorem renderModel_eq (name : Text) (schema : Option Fields) (isResponse : Bool) :
    renderModel name schema isResponse =
      modelOpening name ++ Text.join "\n" (modelFields schema isResponse) ++ modelClosing name := by
  unfold renderModel modelOpening modelClosing Text.lines
  simp -implicitDefEqProofs only [List.flatMap_cons, List.flatMap_nil, List.append_assoc,
    List.cons_append, List.nil_append]

/-- The schema of an article: a required number and the rows of a table of words. -/
def articleSchema : Fields :=
  [(.text "required", .list [.text "id", .scalar (.int 7)]),
   (.text "properties", .map [
    (.text "id", .map [(.text "type", .text "integer")]),
    (.text "rows", .map [(.text "type", .text "array"),
      (.text "items", .map [(.text "type", .text "array"),
        (.text "items", .map [(.text "type", .scalar .null)])])])])]

example : modelFields (some articleSchema) true =
    (["    required int id,", "    @Default([]) List<List<String>> rows,"] : List Text) := rfl

end Scaffold
