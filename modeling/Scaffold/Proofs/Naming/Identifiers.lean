import Scaffold.Proofs.Endpoint.Extracted
import Scaffold.Proofs.Naming.Recasing

/-!
# Method names as identifiers

A method name is cut out of free text of the document, an operation id or a segment of the path.
`isIdentifier_methodName` says of which texts the name comes out as an identifier: those that spell
one up to separators. Other texts are not refused, and then the name is none
(`not_isIdentifier_methodName`).
-/

namespace Scaffold

variable {text : Text} {c d : Char} {endpoint : Endpoint}

/-- The characters of identifiers. -/
def isIdentifierChar (c : Char) : Bool := isAsciiAlphanumeric c || c == '_' || c == '$'

/-- An identifier: letters, digits, underscores and dollar signs, the first one no digit. -/
structure IsIdentifier (text : Text) : Prop where
  ne_nil : text ≠ []
  chars : ∀ c ∈ text, isIdentifierChar c = true
  start : ∀ c ∈ text.head?, c.isDigit = false

instance : Decidable (IsIdentifier text) :=
  decidable_of_iff (text ≠ [] ∧ text.all isIdentifierChar = true ∧
      text.head?.all (fun c => !c.isDigit) = true)
    ⟨fun ⟨hne, hchars, hstart⟩ =>
        ⟨hne, List.all_eq_true.1 hchars, by simpa [Option.all_eq_true] using hstart⟩,
      fun h => ⟨h.ne_nil, List.all_eq_true.2 h.chars, by simpa [Option.all_eq_true] using h.start⟩⟩

theorem IsIdentifier.append {ending : Text} (h : IsIdentifier text)
    (hending : ∀ c ∈ ending, isIdentifierChar c = true) : IsIdentifier (text ++ ending) := by
  obtain ⟨first, rest, rfl⟩ := List.exists_cons_of_ne_nil h.ne_nil
  exact ⟨by simp, List.forall_mem_append.2 ⟨h.chars, hending⟩, h.start⟩

theorem toNat_lt_of_isIdentifierChar (h : isIdentifierChar c = true) : c.toNat < 0x80 := by
  simp only [isIdentifierChar, Bool.or_eq_true, beq_iff_eq] at h
  rcases h with (halnum | rfl) | rfl
  · exact toNat_lt_of_isAsciiAlphanumeric halnum
  · decide
  · decide

/-! ## Recasing ASCII texts -/

/-- What the letter case of ASCII characters has no part in: whether identifiers have the character,
and whether it is a digit. -/
theorem recased_ascii :
    ∀ n < 0x80, ∀ d ∈ upperChar (Char.ofNat n) ++ lowerChar (Char.ofNat n),
      d.toNat < 0x80 ∧ isIdentifierChar d = isIdentifierChar (Char.ofNat n) ∧
        d.isDigit = (Char.ofNat n).isDigit := by
  decide +kernel

/-- The characters agree in all that letter case has no part in. -/
structure Alike (c d : Char) : Prop where
  ascii : d.toNat < 0x80
  identifier : isIdentifierChar d = isIdentifierChar c
  digit : d.isDigit = c.isDigit

theorem Alike.refl (h : c.toNat < 0x80) : Alike c c := ⟨h, rfl, rfl⟩

theorem Alike.trans {e : Char} (h : Alike c d) (h' : Alike d e) : Alike c e :=
  ⟨h'.ascii, h'.identifier.trans h.identifier, h'.digit.trans h.digit⟩

theorem alike_of_mem_recased (hascii : c.toNat < 0x80) (h : d ∈ upperChar c ++ lowerChar c) :
    Alike c d := by
  have hall := recased_ascii c.toNat hascii
  rw [Char.ofNat_toNat] at hall
  obtain ⟨hd, hidentifier, hdigit⟩ := hall d h
  exact ⟨hd, hidentifier, hdigit⟩

theorem alike_upperChar (hascii : c.toNat < 0x80) (h : d ∈ upperChar c) : Alike c d :=
  alike_of_mem_recased hascii (List.mem_append_left _ h)

theorem alike_lowerChar (hascii : c.toNat < 0x80) (h : d ∈ lowerChar c) : Alike c d :=
  alike_of_mem_recased hascii (List.mem_append_right _ h)

/-- The parts of a text that are no separators are all ASCII. -/
def HasAsciiWords (text : Text) : Prop := ∀ c ∈ text, isSeparator c = false → c.toNat < 0x80

namespace Text

theorem exists_mem_words (hc : c ∈ text) (hsep : isSeparator c = false) :
    ∃ word ∈ text.words, c ∈ word := by
  fun_induction words text with
  | case1 => cases hc
  | case2 first hfirst => simp [List.mem_singleton.1 hc ▸ hfirst] at hsep
  | case3 first hfirst => exact ⟨[first], by simp, hc⟩
  | case4 first next rest hfirst ih =>
      rcases List.mem_cons.1 hc with rfl | hc
      · rw [hfirst] at hsep
        cases hsep
      · exact ih hc
  | case5 first next rest hfirst hnext ih =>
      rcases List.mem_cons.1 hc with rfl | hc
      · exact ⟨[c], by simp, by simp⟩
      · obtain ⟨word, hword, hmem⟩ := ih hc
        exact ⟨word, List.mem_cons_of_mem _ hword, hmem⟩
  | case6 first next rest hfirst hnext hnil ih =>
      rcases List.mem_cons.1 hc with rfl | hc
      · exact ⟨[c], by simp, by simp⟩
      · obtain ⟨word, hword, -⟩ := ih hc
        simp [hnil] at hword
  | case7 first next rest hfirst hnext word others hcons ih =>
      rcases List.mem_cons.1 hc with rfl | hc
      · exact ⟨c :: word, by simp, by simp⟩
      · obtain ⟨found, hfound, hmem⟩ := ih hc
        rw [hcons] at hfound
        rcases List.mem_cons.1 hfound with rfl | hfound
        · exact ⟨first :: found, by simp, List.mem_cons_of_mem _ hmem⟩
        · exact ⟨found, List.mem_cons_of_mem _ hfound, hmem⟩

/-- The first word starts with the first character that is no separator. -/
theorem words_eq_cons {rest : Text} (h : text.dropWhile isSeparator = c :: rest) :
    ∃ word others, text.words = (c :: word) :: others := by
  fun_induction words text with
  | case1 => cases h
  | case2 first hfirst => simp [hfirst] at h
  | case3 first hfirst =>
      simp only [List.dropWhile_cons, hfirst, if_neg Bool.false_ne_true] at h
      exact ⟨[], [], by rw [(List.cons.inj h).1]⟩
  | case4 first next more hfirst ih =>
      rw [List.dropWhile_cons_of_pos hfirst] at h
      exact ih h
  | case5 first next more hfirst hnext ih =>
      rw [List.dropWhile_cons_of_neg hfirst] at h
      exact ⟨[], _, by rw [(List.cons.inj h).1]⟩
  | case6 first next more hfirst hnext hnil ih =>
      rw [List.dropWhile_cons_of_neg hfirst] at h
      exact ⟨[], [], by rw [(List.cons.inj h).1]⟩
  | case7 first next more hfirst hnext word others hcons ih =>
      rw [List.dropWhile_cons_of_neg hfirst] at h
      exact ⟨word, others, by rw [(List.cons.inj h).1]⟩

theorem words_eq_nil (h : text.dropWhile isSeparator = []) : text.words = [] := by
  rw [List.eq_nil_iff_forall_not_mem]
  intro word hword
  obtain ⟨c, rest, hcons⟩ := List.exists_cons_of_ne_nil (ne_nil_of_mem_words hword)
  have hc : c ∈ word := hcons ▸ List.mem_cons_self
  obtain ⟨hmem, hsep⟩ := mem_of_mem_words hword hc
  rw [List.dropWhile_eq_nil_iff] at h
  rw [h c hmem] at hsep
  cases hsep

/-- The characters of a text in Pascal case are those of its words up to letter case. -/
theorem forall_mem_pascal_iff (h : HasAsciiWords text) :
    (∀ d ∈ text.pascal, isIdentifierChar d = true) ↔
      ∀ c ∈ text, isSeparator c = false → isIdentifierChar c = true := by
  constructor
  · intro hall c hc hsep
    have hascii := h c hc hsep
    obtain ⟨word, hword, hmem⟩ := exists_mem_words hc hsep
    obtain ⟨d, hd, halike⟩ : ∃ d ∈ word.capitalize, Alike c d := by
      cases word with
      | nil => cases hmem
      | cons first rest =>
          rcases List.mem_cons.1 hmem with rfl | hmem
          · obtain ⟨d, more, hupper, -⟩ := upperChar_eq_cons c
            have hd : d ∈ upperChar c := hupper ▸ List.mem_cons_self
            exact ⟨d, List.mem_append_left _ hd, alike_upperChar hascii hd⟩
          · exact ⟨c, List.mem_append_right _ hmem, .refl hascii⟩
    rw [← halike.identifier]
    exact hall d (List.mem_flatMap.2 ⟨word, hword, hd⟩)
  · intro hall d hd
    obtain ⟨c, hc, hsep, rfl | hupper⟩ := mem_pascal hd
    · exact hall d hc hsep
    · rw [(alike_upperChar (h c hc hsep) hupper).identifier]
      exact hall c hc hsep

/-- The first character of a text in Pascal case is that of its first word up to letter case. -/
theorem pascal_eq_cons {rest : Text} (hdrop : text.dropWhile isSeparator = c :: rest)
    (hascii : c.toNat < 0x80) : ∃ d more, text.pascal = d :: more ∧ Alike c d := by
  obtain ⟨word, others, hwords⟩ := words_eq_cons hdrop
  obtain ⟨d, more, hupper, -⟩ := upperChar_eq_cons c
  refine ⟨d, more ++ word ++ others.flatMap capitalize, ?_, ?_⟩
  · simp [pascal, hwords, capitalize, hupper]
  · exact alike_upperChar hascii (hupper ▸ List.mem_cons_self)

/-- A text in camel case is an identifier if and only if the words of the text have no other
characters and the first one starts with no digit. -/
theorem isIdentifier_camel_iff (h : HasAsciiWords text) :
    IsIdentifier text.camel ↔
      (∀ c ∈ text, isSeparator c = false → isIdentifierChar c = true) ∧
        ∃ first rest, text.dropWhile isSeparator = first :: rest ∧ first.isDigit = false := by
  rw [← forall_mem_pascal_iff h]
  cases hdrop : text.dropWhile isSeparator with
  | nil =>
      have hcamel : text.camel = [] := by simp [camel, pascal, words_eq_nil hdrop]
      rw [hcamel]
      constructor
      · exact fun hid => absurd rfl hid.ne_nil
      · rintro ⟨-, first, rest, hcons, -⟩
        cases hcons
  | cons first rest =>
      have hmem : first ∈ text := List.dropWhile_subset _ (hdrop ▸ List.mem_cons_self)
      have hsep : isSeparator first = false := by
        have hhead := List.head_dropWhile_not isSeparator (l := text) (by simp [hdrop])
        simpa [hdrop] using hhead
      obtain ⟨d, more, hpascal, halike⟩ := pascal_eq_cons hdrop (h first hmem hsep)
      obtain ⟨e, hlower, -, -⟩ := exists_lowerChar_ascii halike.ascii
      have halike' : ∀ x ∈ lowerChar d, Alike d x := fun x hx => alike_lowerChar halike.ascii hx
      have hfirst : Alike first e := halike.trans (halike' e (hlower ▸ List.mem_cons_self))
      have hcamel : text.camel = lowerChar d ++ more := by rw [camel, hpascal]
      have hchars : (∀ x ∈ text.camel, isIdentifierChar x = true) ↔
          ∀ x ∈ text.pascal, isIdentifierChar x = true := by
        rw [hcamel, hpascal, List.forall_mem_append, List.forall_mem_cons]
        refine and_congr_left fun _ => ⟨fun hall => ?_, fun hd x hx => ?_⟩
        · rw [← (halike' e (hlower ▸ List.mem_cons_self)).identifier]
          exact hall e (hlower ▸ List.mem_cons_self)
        · rw [(halike' x hx).identifier, hd]
      have hhead : text.camel.head? = some e := by simp [hcamel, hlower]
      constructor
      · intro hid
        refine ⟨hchars.1 hid.chars, first, rest, rfl, ?_⟩
        rw [← hfirst.digit]
        exact hid.start e hhead
      · rintro ⟨hall, first', rest', hcons, hdigit⟩
        obtain ⟨rfl, -⟩ := List.cons.inj hcons
        refine ⟨by simp [hcamel, hlower], hchars.2 hall, fun x hx => ?_⟩
        obtain rfl : e = x := Option.some.inj (hhead.symm.trans hx)
        rw [hfirst.digit, hdigit]

end Text

/-! ## Method names -/

/-- The text that an endpoint is named after: its operation id, or else the last named segment of
its path. -/
def Endpoint.namesake (endpoint : Endpoint) : Text :=
  match endpoint.operationId with
  | some (c :: rest) => c :: rest
  | _ => (namedSegments endpoint.path).getLast?.getD []

/-- The text that an endpoint is named after spells an identifier up to separators; a segment
of a path comes behind a verb and may start with a digit, or have no words. -/
structure Endpoint.SpellsIdentifier (endpoint : Endpoint) : Prop where
  chars : ∀ c ∈ endpoint.namesake, isSeparator c = false → isIdentifierChar c = true
  start : ∀ id, endpoint.operationId = some id → id ≠ [] →
    ∃ first rest, id.dropWhile isSeparator = first :: rest ∧ first.isDigit = false

theorem Endpoint.SpellsIdentifier.hasAsciiWords (h : endpoint.SpellsIdentifier) :
    HasAsciiWords endpoint.namesake :=
  fun c hc hsep => toNat_lt_of_isIdentifierChar (h.chars c hc hsep)

/-- The words for supported verbs are identifiers. -/
theorem isIdentifier_verbWord :
    ∀ verb ∈ supportedVerbs, IsIdentifier verb.lower ∧
      ∃ word ∈ verbWord? verb.lower, IsIdentifier word := by
  decide +kernel

/-- Behind a verb, what is left of a path need not be an identifier of its own. -/
theorem Endpoint.Regular.isIdentifier_pathMethodName_iff (h : endpoint.Regular)
    (hascii : HasAsciiWords ((namedSegments endpoint.path).getLast?.getD [])) :
    IsIdentifier endpoint.pathMethodName ↔
      ∀ c ∈ (namedSegments endpoint.path).getLast?.getD [],
        isSeparator c = false → isIdentifierChar c = true := by
  obtain ⟨hverb, word, hfound, hword⟩ := isIdentifier_verbWord _ h.method_mem
  rw [Endpoint.pathMethodName]
  cases hlast : (namedSegments endpoint.path).getLast? with
  | none => simpa using hverb
  | some segment =>
      rw [hlast, Option.getD_some] at hascii
      rw [Option.getD_some, ← Text.forall_mem_pascal_iff hascii]
      dsimp only
      rw [Option.mem_def.1 hfound]
      exact ⟨fun hid d hd => hid.chars d (List.mem_append_right _ hd), hword.append⟩

namespace Endpoint

theorem namesake_of_id {rest : Text} (h : endpoint.operationId = some (c :: rest)) :
    endpoint.namesake = c :: rest ∧ endpoint.methodName = Text.camel (c :: rest) := by
  rw [namesake, methodName, h]
  exact ⟨rfl, rfl⟩

theorem namesake_of_path (h : ∀ c rest, endpoint.operationId ≠ some (c :: rest)) :
    endpoint.namesake = (namedSegments endpoint.path).getLast?.getD [] ∧
      endpoint.methodName = endpoint.pathMethodName := by
  rw [namesake, methodName]
  cases hid : endpoint.operationId with
  | none => exact ⟨rfl, rfl⟩
  | some id =>
      cases id with
      | nil => exact ⟨rfl, rfl⟩
      | cons c rest => exact absurd hid (h c rest)

/-- Of the texts with ASCII words, those that spell an identifier up to separators name one. -/
theorem Regular.isIdentifier_methodName_iff (h : endpoint.Regular)
    (hascii : HasAsciiWords endpoint.namesake) :
    IsIdentifier endpoint.methodName ↔ endpoint.SpellsIdentifier := by
  by_cases hid : ∃ c rest, endpoint.operationId = some (c :: rest)
  · obtain ⟨c, rest, hid⟩ := hid
    obtain ⟨hnamesake, hname⟩ := namesake_of_id hid
    rw [hnamesake] at hascii
    rw [hname, Text.isIdentifier_camel_iff hascii]
    constructor
    · rintro ⟨hchars, hstart⟩
      refine ⟨hnamesake ▸ hchars, fun id hsome _ => ?_⟩
      rw [hid] at hsome
      exact Option.some.inj hsome ▸ hstart
    · exact fun hspells => ⟨hnamesake ▸ hspells.chars, hspells.start _ hid (by simp)⟩
  · obtain ⟨hnamesake, hname⟩ := namesake_of_path fun c rest hsome => hid ⟨c, rest, hsome⟩
    rw [hnamesake] at hascii
    rw [hname, h.isIdentifier_pathMethodName_iff hascii]
    constructor
    · intro hchars
      refine ⟨hnamesake ▸ hchars, fun id hsome hne => ?_⟩
      obtain ⟨c, rest, rfl⟩ := List.exists_cons_of_ne_nil hne
      exact absurd ⟨c, rest, hsome⟩ hid
    · exact fun hspells => hnamesake ▸ hspells.chars

end Endpoint

/-- The method name of every endpoint of a document is an identifier if the text that the endpoint
is named after spells one up to separators, and of an ASCII text only then. -/
theorem isIdentifier_methodName {document : Value} {catalog : Catalog}
    (hcatalog : Catalog.ofDocument document = .ok catalog) (hmem : endpoint ∈ catalog.endpoints) :
    (endpoint.SpellsIdentifier → IsIdentifier endpoint.methodName) ∧
      ((∀ c ∈ endpoint.namesake, c.toNat < 0x80) → IsIdentifier endpoint.methodName →
        endpoint.SpellsIdentifier) := by
  have hregular : endpoint.Regular := Extracted.regular ⟨document, catalog, hcatalog, hmem⟩
  constructor
  · exact fun hspells => (hregular.isIdentifier_methodName_iff hspells.hasAsciiWords).2 hspells
  · exact fun hascii => (hregular.isIdentifier_methodName_iff fun c hc _ => hascii c hc).1

/-- A document with one operation, of which only the id is given. -/
def usersDocument (id : Text) : Value :=
  .map [(.text "paths", .map [(.text "/users", .map [(.text "get", .map [
    (.text "operationId", .scalar (.text id))])])])]

/-- The operation of the document. -/
def usersEndpoint (id : Text) : Endpoint :=
  { path := "/users", method := "get", operationId := some id }

theorem isIdentifier_methodName_users :
    (usersEndpoint "list-users").SpellsIdentifier ∧
      IsIdentifier (usersEndpoint "list-users").methodName := by
  have hcatalog : Catalog.ofDocument (usersDocument "list-users") =
      .ok (Catalog.ofEndpoints [(usersEndpoint "list-users", ["default"])]) := rfl
  have hspells : (usersEndpoint "list-users").SpellsIdentifier := by
    refine ⟨by decide, fun id hid _ => ?_⟩
    obtain rfl : ("list-users" : Text) = id := Option.some.inj hid
    exact ⟨'l', "ist-users", by decide, by decide⟩
  exact ⟨hspells, (isIdentifier_methodName hcatalog List.mem_cons_self).1 hspells⟩

/-- Not every method name of an accepted document is an identifier: a dot in an operation id
stays. -/
theorem not_isIdentifier_methodName :
    ¬ ∀ (document : Value) (catalog : Catalog), Catalog.ofDocument document = .ok catalog →
      ∀ endpoint ∈ catalog.endpoints, IsIdentifier endpoint.methodName := by
  intro h
  have hcatalog : Catalog.ofDocument (usersDocument "users.list") =
      .ok (Catalog.ofEndpoints [(usersEndpoint "users.list", ["default"])]) := rfl
  have hname := h _ _ hcatalog (usersEndpoint "users.list") List.mem_cons_self
  exact absurd hname (by decide)

end Scaffold
