import Scaffold.Proofs.Naming.DerivedNames
import Scaffold.Proofs.Naming.Identifiers
import Scaffold.Proofs.Text.Lines

/-!
# Laws of the case conversions

A separator cuts the words of a text (`words_append_separator`), and the upper-case form of a
character starts with a character that is its own (`upperChar_head`). From these two facts follows
how the conversions compose (`recase_laws`): they see nothing of a text but its words, Pascal and
title case are final, and Pascal case is found again behind the other two.
-/

namespace Scaffold

variable {a b text other : Text} {c d : Char} {row : List Text} {feature : Feature}
  {endpoint : Endpoint}

/-! ## Capitals are final -/

/-- No target of the run is a code point that the other run maps. -/
def CaseRun.misses (run other : CaseRun) : Bool :=
  Nat.blt (run.target + (run.last - run.first)) other.first || Nat.blt other.last run.target ||
    (Nat.beq other.step 2 && (Nat.beq run.step 2 || Nat.beq run.first run.last) &&
      Nat.beq ((run.target + other.first) % 2) 1)

theorem upperRuns_miss : upperRuns.all (fun run => upperRuns.all run.misses) = true := by
  decide +kernel

theorem upperRuns_miss_expansions :
    upperRuns.all (fun run => upperExpansions.all fun entry =>
      Nat.blt (run.target + (run.last - run.first)) entry.1 || Nat.blt entry.1 run.target) =
        true := by
  decide +kernel

theorem upperExpansions_head :
    ∀ entry ∈ upperExpansions, ∀ n ∈ entry.2.head?, upperChar (Char.ofNat n) = [Char.ofNat n] := by
  decide +kernel

theorem CaseRun.image?_of_misses {run other : CaseRun} {k : Nat} (h : run.misses other = true)
    (hk : k ≤ run.last - run.first) (hstep : k % run.step = 0) :
    other.image? (run.target + k) = none := by
  simp only [misses, Bool.or_eq_true, Bool.and_eq_true, Nat.blt_eq, Nat.beq_eq] at h
  rw [image?, if_neg]
  simp only [Bool.and_eq_true, decide_eq_true_eq, beq_iff_eq]
  rintro ⟨⟨hlow, hhigh⟩, hmod⟩
  rcases h with (h | h) | ⟨⟨hother, hrun⟩, hodd⟩
  · omega
  · omega
  · rw [hother] at hmod
    rcases hrun with hrun | hrun
    · rw [hrun] at hstep
      omega
    · omega

/-- What a run maps to is in upper case. -/
theorem upperChar_target {run : CaseRun} (hrun : run ∈ upperRuns) {k : Nat}
    (hk : k ≤ run.last - run.first) (hstep : k % run.step = 0) :
    upperChar (Char.ofNat (run.target + k)) = [Char.ofNat (run.target + k)] := by
  have hrange := upperRuns_range run hrun
  have hnat : (Char.ofNat (run.target + k)).toNat = run.target + k :=
    toNat_ofNat (by rw [Nat.isValidChar]; omega)
  rw [upperChar, hnat]
  split
  · refine if_neg fun hsmall => ?_
    have hsmall := isSmall_iff.1 hsmall
    omega
  · have hlookup : upperExpansions.lookup (run.target + k) = none := by
      rw [List.lookup_eq_none_iff]
      intro entry hentry
      have hmiss := List.all_eq_true.1 (List.all_eq_true.1 upperRuns_miss_expansions run hrun)
        entry hentry
      simp only [Bool.or_eq_true, Nat.blt_eq] at hmiss
      rw [bne_iff_ne]
      omega
    have himage : upperRuns.findSome? (·.image? (run.target + k)) = none := by
      rw [List.findSome?_eq_none_iff]
      intro other hother
      exact CaseRun.image?_of_misses
        (List.all_eq_true.1 (List.all_eq_true.1 upperRuns_miss run hrun) other hother) hk hstep
    rw [hlookup, himage]
    rfl

/-- The upper-case form of a character starts with a character in upper case. -/
theorem upperChar_head {rest : Text} (h : upperChar c = d :: rest) : upperChar d = [d] := by
  rcases upperChar_cases c with ⟨heq, hsmall⟩ | ⟨hsmall, heq⟩ | ⟨entry, hentry, heq⟩ |
    ⟨run, hrun, k, hk, hstep, heq⟩
  · rw [heq] at h
    obtain ⟨rfl, -⟩ := List.cons.inj h
    exact heq
  · rw [heq] at h
    obtain ⟨rfl, -⟩ := List.cons.inj h
    have hnat := toNat_upper hsmall
    have hrange := isSmall_iff.1 hsmall
    refine upperChar_of_ascii (by omega) (Bool.eq_false_iff.2 fun hsmall' => ?_)
    have hrange' := isSmall_iff.1 hsmall'
    omega
  · rw [heq] at h
    cases hcodes : entry.2 with
    | nil => simp [hcodes] at h
    | cons n more =>
        rw [hcodes, List.map_cons] at h
        obtain ⟨rfl, -⟩ := List.cons.inj h
        exact upperExpansions_head entry hentry n (by rw [hcodes]; rfl)
  · rw [heq] at h
    obtain ⟨rfl, -⟩ := List.cons.inj h
    exact upperChar_target hrun hk hstep

/-- An ASCII character in upper case is found again behind its lower-case form. -/
theorem upperChar_lower_upper :
    ∀ n < 0x80, ∀ d ∈ upperChar (Char.ofNat n), ∀ e ∈ lowerChar d, upperChar e = [d] := by
  decide +kernel

/-! ## Words -/

/-- A text of separators. -/
def IsGap (text : Text) : Prop := ∀ c ∈ text, isSeparator c = true

instance : Decidable (IsGap text) := inferInstanceAs (Decidable (∀ c ∈ text, _))

namespace Text

theorem words_cons_separator (hc : isSeparator c = true) (text : Text) :
    words (c :: text) = words text := by
  cases text with
  | nil => simp [words, hc]
  | cons next rest => simp [words, hc]

/-- A separator cuts the words. -/
theorem words_append_separator (hc : isSeparator c = true) (a b : Text) :
    words (a ++ c :: b) = words a ++ words b := by
  fun_induction words a with
  | case1 => rw [List.nil_append, words_cons_separator hc, List.nil_append]
  | case2 d hd =>
      rw [List.singleton_append, words_cons_separator hd, words_cons_separator hc, List.nil_append]
  | case3 d hd => simp [words, hd, hc, words_cons_separator hc]
  | case4 d next rest hd ih =>
      rw [List.cons_append, words_cons_separator hd, ih]
  | case5 d next rest hd hnext ih =>
      rw [List.cons_append] at ih
      simp [words, hd, hnext, ih]
  | case6 d next rest hd hnext hnil ih =>
      obtain ⟨word, others, hwords⟩ := words_eq_cons (List.dropWhile_cons_of_neg (l := rest) hnext)
      rw [hnil] at hwords
      cases hwords
  | case7 d next rest hd hnext first others hcons ih =>
      rw [hcons] at ih
      rw [List.cons_append] at ih
      simp [words, hd, hnext, ih]

/-- Separators in front of a text belong to no word. -/
theorem words_gap_append (h : IsGap a) (b : Text) :
    words (a ++ b) = words b := by
  induction a with
  | nil => rfl
  | cons c a ih =>
      obtain ⟨hc, ha⟩ := List.forall_mem_cons.1 h
      rw [List.cons_append, words_cons_separator hc, ih ha]

/-- A run of separators cuts the words, whichever separators they are. -/
theorem words_append_gap {gap : Text} (h : IsGap gap) (hne : gap ≠ []) (a b : Text) :
    words (a ++ gap ++ b) = words a ++ words b := by
  obtain ⟨c, rest, rfl⟩ := List.exists_cons_of_ne_nil hne
  obtain ⟨hc, hrest⟩ := List.forall_mem_cons.1 h
  rw [List.append_assoc, List.cons_append, words_append_separator hc,
    words_gap_append hrest]

/-- Separators at the ends of a text belong to no word. -/
theorem words_between {lead tail : Text} (hlead : IsGap lead) (htail : IsGap tail) (text : Text) :
    words (lead ++ text ++ tail) = words text := by
  rw [List.append_assoc, words_gap_append hlead]
  by_cases hnil : tail = []
  · rw [hnil, List.append_nil]
  · have hrun := words_append_gap htail hnil text []
    rwa [List.append_nil, words, List.append_nil] at hrun

/-- Names without separators are read back from a row with blanks between them. -/
theorem words_join (h : ∀ word ∈ row, Solid word ∧ word ≠ []) : words (join " " row) = row := by
  induction row with
  | nil => rfl
  | cons first row ih =>
      obtain ⟨⟨hsolid, hne⟩, hrow⟩ := List.forall_mem_cons.1 h
      by_cases hnil : row = []
      · rw [hnil, join_singleton, words_of_solid hsolid hne]
      · rw [join_cons first hnil, words_append_gap (by decide) (by decide), ih hrow,
          words_of_solid hsolid hne, List.singleton_append]

/-! ## Conversions -/

theorem capitalize_ne_nil (h : a ≠ []) : a.capitalize ≠ [] := by
  obtain ⟨c, rest, rfl⟩ := List.exists_cons_of_ne_nil h
  obtain ⟨d, more, hupper, -⟩ := upperChar_eq_cons c
  simp [capitalize, hupper]

theorem capitalize_append (h : a ≠ []) (b : Text) : capitalize (a ++ b) = a.capitalize ++ b := by
  obtain ⟨c, rest, rfl⟩ := List.exists_cons_of_ne_nil h
  exact (List.append_assoc ..).symm

/-- A capitalised word stays as it is. -/
theorem capitalize_capitalize (a : Text) : a.capitalize.capitalize = a.capitalize := by
  cases a with
  | nil => rfl
  | cons c rest =>
      obtain ⟨d, more, hupper, -⟩ := upperChar_eq_cons c
      rw [capitalize, hupper, List.cons_append, capitalize, upperChar_head hupper,
        List.singleton_append]

theorem solid_capitalize (h : Solid a) : Solid a.capitalize := by
  intro d hd
  rcases mem_capitalize hd with hd | ⟨c, hc, hd⟩
  · exact h d hd
  · exact isSeparator_of_mem_upperChar (h c hc) hd

theorem solid_of_mem_words {word : Text} (h : word ∈ text.words) : Solid word :=
  fun _ hc => (mem_of_mem_words h hc).2

/-- A text in Pascal case starts with a character in upper case. -/
theorem capitalize_pascal (text : Text) : text.pascal.capitalize = text.pascal := by
  rw [pascal]
  cases hwords : text.words with
  | nil => rfl
  | cons word others =>
      have hne : word ≠ [] := ne_nil_of_mem_words (hwords ▸ List.mem_cons_self)
      rw [List.flatMap_cons, capitalize_append (capitalize_ne_nil hne), capitalize_capitalize]

theorem pascal_pascal (text : Text) : text.pascal.pascal = text.pascal := by
  rw [pascal_of_solid (solid_pascal text), capitalize_pascal]

theorem camel_pascal (text : Text) : text.pascal.camel = text.camel := by
  rw [camel, pascal_pascal, ← camel]

/-- The words of a text in title case are those of the text, capitalised. -/
theorem words_title (text : Text) : text.title.words = text.words.map capitalize := by
  refine words_join fun part hpart => ?_
  obtain ⟨word, hword, rfl⟩ := List.mem_map.1 hpart
  exact ⟨solid_capitalize (solid_of_mem_words hword),
    capitalize_ne_nil (ne_nil_of_mem_words hword)⟩

theorem title_title (text : Text) : text.title.title = text.title := by
  have htwice : text.title.words.map capitalize = text.words.map capitalize := by
    rw [words_title, List.map_map]
    exact List.map_congr_left fun word _ => capitalize_capitalize word
  rw [title, htwice, ← title]

theorem pascal_title (text : Text) : text.title.pascal = text.pascal := by
  rw [pascal, words_title, List.flatMap_map]
  exact List.flatMap_congr fun word _ => capitalize_capitalize word

end Text

/-- The first word of the text, if it has one, starts with an ASCII character. -/
def StartsInAscii (text : Text) : Prop :=
  ∀ word ∈ text.words.head?, ∀ c ∈ word.head?, c.toNat < 0x80

instance : Decidable (StartsInAscii text) :=
  @Option.decidableForallMem Text (fun word => ∀ c ∈ word.head?, c.toNat < 0x80)
    (fun word => @Option.decidableForallMem Char (fun c => c.toNat < 0x80)
      (fun c => c.toNat.decLt 0x80) word.head?) text.words.head?

/-- Pascal case is found again behind camel case, where the small letter at the start is an ASCII
letter. -/
theorem Text.pascal_camel (h : StartsInAscii text) : text.camel.pascal = text.pascal := by
  rw [pascal_of_solid (solid_camel text), camel]
  cases hwords : text.words with
  | nil => rw [pascal, hwords]; rfl
  | cons word others =>
      obtain ⟨c, rest, rfl⟩ :=
        List.exists_cons_of_ne_nil (ne_nil_of_mem_words (hwords ▸ List.mem_cons_self))
      have hascii : c.toNat < 0x80 := h _ (by rw [hwords]; rfl) c rfl
      obtain ⟨d, hupper, hd, -⟩ := exists_upperChar_ascii hascii
      obtain ⟨e, hlower, -, -⟩ := exists_lowerChar_ascii hd
      have hback : upperChar e = [d] := by
        have hall := upperChar_lower_upper c.toNat hascii
        rw [Char.ofNat_toNat, hupper] at hall
        exact hall d List.mem_cons_self e (hlower ▸ List.mem_cons_self)
      have hpascal : text.pascal = d :: (rest ++ others.flatMap capitalize) := by
        rw [pascal, hwords, List.flatMap_cons, capitalize, hupper]
        rfl
      rw [hpascal]
      simp only [hlower, List.singleton_append, capitalize, hback]

/-! ## Laws -/

/-- The texts look the same in Pascal, camel and title case. -/
structure SameCases (a b : Text) : Prop where
  pascal : a.pascal = b.pascal
  camel : a.camel = b.camel
  title : a.title = b.title

theorem SameCases.of_words (h : a.words = b.words) : SameCases a b := by
  have hpascal : a.pascal = b.pascal := by rw [Text.pascal, Text.pascal, h]
  exact ⟨hpascal, by rw [Text.camel, Text.camel, hpascal], by rw [Text.title, Text.title, h]⟩

/-- Classes of an endpoint with an operation id are named after its Pascal case. -/
theorem Endpoint.name_of_id (hid : endpoint.operationId = some text) (hne : text ≠ [])
    (h : StartsInAscii text) {kind : NameKind} (hkind : kind ∈ NameKind.classes) :
    kind.name feature endpoint = text.pascal ++ kind.ending := by
  obtain ⟨c, rest, rfl⟩ := List.exists_cons_of_ne_nil hne
  obtain ⟨-, hname⟩ := namesake_of_id hid
  rw [NameKind.name_eq (hname ▸ Text.solid_camel _) hkind, baseName, hname, Text.pascal_camel h]

/-- The case conversions see nothing of a text but its words: other separators between them, and
separators at the ends, change nothing. Names in Pascal and camel case have no separators. Pascal
and title case are final, and Pascal case is found again behind title case and, where the first word
starts in ASCII, behind camel case; so what is named after a method is named after its operation
id. -/
theorem recase_laws (text : Text) :
    (∀ other : Text, text.words = other.words → SameCases text other) ∧
    (∀ before after gap gap' : Text, IsGap gap → gap ≠ [] → IsGap gap' → gap' ≠ [] →
      text = before ++ gap ++ after → SameCases text (before ++ gap' ++ after)) ∧
    (∀ lead tail : Text, IsGap lead → IsGap tail → SameCases (lead ++ text ++ tail) text) ∧
    (Solid text.pascal ∧ Solid text.camel) ∧
    (text.pascal.pascal = text.pascal ∧ text.title.title = text.title) ∧
    (text.pascal.camel = text.camel ∧ text.title.pascal = text.pascal) ∧
    (StartsInAscii text → text.camel.pascal = text.pascal ∧
      ∀ (feature : Feature) (endpoint : Endpoint), endpoint.operationId = some text → text ≠ [] →
        (∀ kind ∈ NameKind.classes, kind.name feature endpoint = text.pascal ++ kind.ending) ∧
        endpoint.plainHandler = "_on" ++ (text.pascal ++ "Event")) := by
  refine ⟨fun other => .of_words, ?_, fun lead tail hlead htail => ?_,
    ⟨Text.solid_pascal text, Text.solid_camel text⟩, ⟨Text.pascal_pascal text, Text.title_title text⟩,
    ⟨Text.camel_pascal text, Text.pascal_title text⟩, fun hascii => ⟨Text.pascal_camel hascii, ?_⟩⟩
  · rintro before after gap gap' hgap hne hgap' hne' rfl
    refine .of_words ?_
    rw [Text.words_append_gap hgap hne, Text.words_append_gap hgap' hne']
  · exact .of_words (Text.words_between hlead htail text)
  · intro feature endpoint hid hne
    have hname : ∀ kind ∈ NameKind.classes,
        kind.name feature endpoint = text.pascal ++ kind.ending :=
      fun _ hkind => Endpoint.name_of_id hid hne hascii hkind
    exact ⟨hname, congrArg _ (hname .plainEvent (by decide))⟩

/-- An operation id with other separators in it and around it. -/
theorem recase_laws_orders (feature : Feature) :
    let orders : Endpoint := { path := "/", method := "get", operationId := some "list-orders" }
    SameCases "list-orders" "list _orders" ∧ SameCases "_list-orders " "list-orders" ∧
      Text.pascal (Text.camel "list-orders") = "ListOrders" ∧
      NameKind.requestModel.name feature orders = "ListOrdersRequest" := by
  intro orders
  obtain ⟨-, hgap, hends, -, -, -, hcamel⟩ := recase_laws "list-orders"
  obtain ⟨hpascal, hnames⟩ := hcamel (by decide)
  exact ⟨hgap "list" "orders" "-" " _" (by decide) (by decide) (by decide) (by decide) rfl,
    hends "_" " " (by decide) (by decide), hpascal,
    (hnames feature orders rfl (by decide)).1 .requestModel (by decide)⟩

end Scaffold
