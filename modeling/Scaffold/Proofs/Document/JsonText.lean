import Scaffold.Document.Json
import Scaffold.Proofs.Text.Integer

/-!
# JSON texts read back

A value of texts, words and short integers is read back from the JSON text it is written as, whatever
follows the text that does not go on with a number (`readValue_write`, `readWithin_write`).
-/

namespace Scaffold

/-- Scalars that are read back as they are. -/
def Scalar.IsPlain : Scalar → Prop
  | .null => True
  | .bool _ => True
  | .int value => Text.IsShort value
  | .text _ => True
  | _ => False

namespace Value

mutual

/-- Values of plain scalars in which each mapping has texts for keys, each key once. -/
def IsPlain : Value → Prop
  | .scalar value => value.IsPlain
  | .list items => ItemsPlain items
  | .map fields => (fields.map (·.1)).Nodup ∧ FieldsPlain fields

def ItemsPlain : List Value → Prop
  | [] => True
  | item :: rest => item.IsPlain ∧ ItemsPlain rest

def FieldsPlain : List (Scalar × Value) → Prop
  | [] => True
  | (key, value) :: rest => (∃ name, key = .text name) ∧ value.IsPlain ∧ FieldsPlain rest

end

mutual

/-- How many sequences and mappings stand around each other. -/
def nesting : Value → Nat
  | .scalar _ => 0
  | .list items => nestingItems items + 1
  | .map fields => nestingFields fields + 1

def nestingItems : List Value → Nat
  | [] => 0
  | item :: rest => max item.nesting (nestingItems rest)

def nestingFields : List (Scalar × Value) → Nat
  | [] => 0
  | (_, value) :: rest => max value.nesting (nestingFields rest)

end

end Value

namespace Json

variable {n : Nat} {text rest : Text} {c : Char}

/-! ## Numbers -/

/-- A rest that does not go on with a number. -/
def EndsNumber (rest : Text) : Prop :=
  ∀ c ∈ rest.head?, isDigit c = false ∧ c ≠ '.' ∧ c ≠ 'e' ∧ c ≠ 'E'

/-- A number ends at the end of the text. -/
theorem EndsNumber.nil : EndsNumber [] := fun _ h => nomatch h

/-- A number ends in front of a character that none goes on with. -/
theorem EndsNumber.cons (h : isDigit c = false ∧ c ≠ '.' ∧ c ≠ 'e' ∧ c ≠ 'E') (rest : Text) :
    EndsNumber (c :: rest) := by
  intro d hd
  obtain rfl : c = d := by simpa using hd
  exact h

/-- A natural number is written with digits of the reader. -/
theorem isDigit_of_mem_ofNat (h : c ∈ Text.ofNat n) : isDigit c = true :=
  Text.isDigit_of_mem_ofNat h

/-- The value of the digits is the number. -/
theorem digitsValue_ofNat (n : Nat) : digitsValue (Text.ofNat n) = n := by
  have hvalue : digitsValue (Text.ofNat n) = Nat.ofDigitChars 10 (Text.ofNat n) 0 := by
    rw [digitsValue, Nat.ofDigitChars_eq_foldl]
    congr 1
    funext value c
    rw [Nat.mul_comm]
    rfl
  exact hvalue.trans Nat.ofDigitChars_ten_toDigits

/-- Only zero is written with a zero in front. -/
theorem head?_ofNat (h : 0 < n) : (Text.ofNat n).head? ≠ some '0' := by
  induction n using Nat.strongRecOn with
  | ind n ih =>
      by_cases hsmall : n < 10
      · rw [Text.ofNat, Nat.toDigits_of_lt_base hsmall]
        simp only [List.head?_cons, ne_eq, Option.some.injEq, Nat.digitChar_eq_zero]
        omega
      · have hrest := ih (n / 10) (by omega) (by omega)
        rw [Text.ofNat, Nat.toDigits_of_base_le (by decide) (by omega), List.head?_append]
        cases hhead : (Nat.toDigits 10 (n / 10)).head? with
        | none => exact absurd (List.head?_eq_none_iff.1 hhead) Nat.toDigits_ne_nil
        | some c =>
            rw [Text.ofNat, hhead] at hrest
            exact hrest

/-- The reader takes the digits of the number and no more. -/
theorem takeWhile_ofNat (hrest : EndsNumber rest) :
    (Text.ofNat n ++ rest).takeWhile isDigit = Text.ofNat n := by
  rw [List.takeWhile_append_of_pos fun c hc => isDigit_of_mem_ofNat hc]
  cases rest with
  | nil => simp
  | cons c rest =>
      rw [List.takeWhile_cons_of_neg (by simp [(hrest c rfl).1]), List.append_nil]

/-- The digits are the integer part. -/
theorem integerPart_ofNat (hrest : EndsNumber rest) :
    integerPart (Text.ofNat n ++ rest) = Text.ofNat n := by
  rcases Nat.eq_zero_or_pos n with rfl | hpos
  · rw [Text.ofNat, Nat.toDigits_zero]
    rfl
  · obtain ⟨c, digits, hdigits⟩ := List.exists_cons_of_ne_nil (Text.ofNat_ne_nil n)
    have hzero : c ≠ '0' := by
      rintro rfl
      exact head?_ofNat hpos (by rw [hdigits]; rfl)
    have htake := takeWhile_ofNat (n := n) hrest
    rw [hdigits] at htake ⊢
    rw [List.cons_append] at htake ⊢
    unfold integerPart
    split
    · next h => exact absurd (List.cons.inj h).1 hzero
    · exact htake

/-- Where a number ends there is no fraction. -/
theorem fractionPart_of_ends (hrest : EndsNumber rest) : fractionPart rest = [] := by
  cases rest with
  | nil => rfl
  | cons c rest =>
      unfold fractionPart
      split
      · next h => exact absurd (List.cons.inj h).1 (hrest c rfl).2.1
      · rfl

/-- Where a number ends there is no exponent. -/
theorem exponentPart?_of_ends (hrest : EndsNumber rest) : exponentPart? rest = none := by
  cases rest with
  | nil => rfl
  | cons c rest =>
      obtain ⟨-, -, he, hE⟩ := hrest c rfl
      unfold exponentPart?
      dsimp only
      rw [if_neg (by simp [he, hE])]

/-- A natural number is written without a sign. -/
theorem not_minus_ofNat (n : Nat) (rest other : Text) : Text.ofNat n ++ rest ≠ '-' :: other := by
  obtain ⟨c, digits, hdigits⟩ := List.exists_cons_of_ne_nil (Text.ofNat_ne_nil n)
  intro h
  rw [hdigits, List.cons_append] at h
  obtain rfl := (List.cons.inj h).1
  exact absurd (isDigit_of_mem_ofNat (n := n) (hdigits ▸ List.mem_cons_self)) (by decide)

/-- An integer is read back, with its sign. -/
theorem readNumber_ofInt {n : Int} (h : Text.IsShort n) (hrest : EndsNumber rest) :
    readNumber (Text.ofInt n ++ rest) = .ok (.int n, rest) := by
  have hne : (Text.ofNat n.natAbs).isEmpty = false := by
    simpa using Text.ofNat_ne_nil n.natAbs
  have hlength : ¬ Text.digitLimit < (Text.ofNat n.natAbs).length := Nat.not_lt.2 h
  unfold readNumber
  split
  next negative unsigned hsign =>
  -- the sign that is read is the one that has been written
  obtain ⟨hnegative, rfl⟩ : (if negative then -(n.natAbs : Int) else n.natAbs) = n ∧
      unsigned = Text.ofNat n.natAbs ++ rest := by
    cases n with
    | negSucc n =>
        cases hsign
        exact ⟨rfl, rfl⟩
    | ofNat n =>
        split at hsign
        · next other heq => exact absurd heq (not_minus_ofNat n rest other)
        · cases hsign
          exact ⟨rfl, rfl⟩
  simp only [integerPart_ofNat hrest, hne, Bool.false_eq_true, if_false, List.drop_left,
    fractionPart_of_ends hrest, List.isEmpty_nil, if_true, exponentPart?_of_ends hrest, hlength,
    digitsValue_ofNat, hnegative]

/-- No word starts as an integer does. -/
theorem find?_words_ofInt (n : Int) (rest : Text) :
    (words.find? fun word => word.1.isPrefixOf (Text.ofInt n ++ rest)) = none := by
  have hhead : ∀ (n : Nat) (rest : Text), ∃ d more, Text.ofNat n ++ rest = d :: more ∧ isDigit d := by
    intro n rest
    obtain ⟨d, more, hdigits⟩ := List.exists_cons_of_ne_nil (Text.ofNat_ne_nil n)
    exact ⟨d, more ++ rest, by rw [hdigits, List.cons_append],
      isDigit_of_mem_ofNat (n := n) (hdigits ▸ List.mem_cons_self)⟩
  have hletter : ∀ d : Char, isDigit d → ∀ e : Char, isDigit e = false → (e == d) = false := by
    intro d hd e he
    rw [beq_eq_false_iff_ne]
    rintro rfl
    rw [he] at hd
    cases hd
  cases n with
  | ofNat n =>
      obtain ⟨d, more, htext, hd⟩ := hhead n rest
      show (words.find? fun word => word.1.isPrefixOf (Text.ofNat n ++ rest)) = none
      rw [htext]
      simp [words, List.isPrefixOf, hletter d hd, isDigit]
  | negSucc n =>
      obtain ⟨d, more, htext, hd⟩ := hhead (n + 1) rest
      show (words.find? fun word => word.1.isPrefixOf ('-' :: (Text.ofNat (n + 1) ++ rest))) = none
      rw [htext]
      simp [words, List.isPrefixOf, hletter d hd, isDigit]

/-- No word is taken for an integer, so it is read as a number. -/
theorem readPlain_ofInt {n : Int} (h : Text.IsShort n) (hrest : EndsNumber rest) :
    readPlain (Text.ofInt n ++ rest) = .ok (.int n, rest) := by
  rw [readPlain, find?_words_ofInt]
  exact readNumber_ofInt h hrest

/-! ## Strings -/

/-- A hexadecimal digit has its value. -/
theorem hexValue?_digitChar : ∀ d < 16, hexValue? (Nat.digitChar d) = some d := by decide

/-- A control character is read back from its escape. -/
theorem hexUnit?_control (h : n < 0x20) (rest : Text) :
    hexUnit? ('0' :: '0' :: Nat.digitChar (n / 16) :: Nat.digitChar (n % 16) :: rest) = some n := by
  have hhigh := hexValue?_digitChar (n / 16) (by omega)
  have hlow := hexValue?_digitChar (n % 16) (by omega)
  have hzero : hexValue? '0' = some 0 := hexValue?_digitChar 0 (by omega)
  simp only [hexUnit?, hzero, hhigh, hlow, Option.bind_eq_bind, Option.bind_some, Option.some.injEq]
  omega

/-- One character of a string is read in one step. -/
theorem readString_quoteChar (opening : Text) (fuel : Nat) (reversed : Text) (c : Char)
    {more : Text} (hmore : more ≠ []) :
    readString opening (fuel + 1) reversed (quoteChar c ++ more) =
      readString opening fuel (c :: reversed) more := by
  obtain ⟨next, rest, rfl⟩ := List.exists_cons_of_ne_nil hmore
  by_cases hquote : c = '"'
  · subst hquote
    rfl
  by_cases hslash : c = '\\'
  · subst hslash
    rfl
  by_cases hcontrol : c.toNat < 0x20
  · have hchars : quoteChar c ++ next :: rest = '\\' :: 'u' :: '0' :: '0' ::
        Nat.digitChar (c.toNat / 16) :: Nat.digitChar (c.toNat % 16) :: next :: rest := by
      simp [quoteChar, hquote, hslash, hcontrol]
    have hhigh : isHighSurrogate c.toNat = false := by
      simp [isHighSurrogate]
      omega
    have hlow : isLowSurrogate c.toNat = false := by
      simp [isLowSurrogate]
      omega
    have hchar : unitChar c.toNat = c := by
      simp [unitChar, hhigh, hlow]
    rw [hchars, readString, hexUnit?_control hcontrol]
    simp [hhigh, hchar]
  · have hchars : quoteChar c ++ next :: rest = c :: next :: rest := by
      simp [quoteChar, hquote, hslash, hcontrol]
    rw [hchars, readString]
    · simp [hcontrol]
    all_goals simp_all

/-- A text is read back from its quoted characters, by induction on the text. -/
theorem readString_quoted (opening : Text) {fuel : Nat} (reversed text rest : Text)
    (h : text.length < fuel) :
    readString opening fuel reversed (text.flatMap quoteChar ++ '"' :: rest) =
      .ok (reversed.reverse ++ text, rest) := by
  induction text generalizing fuel reversed with
  | nil =>
      obtain ⟨fuel, rfl⟩ := Nat.exists_eq_succ_of_ne_zero (Nat.ne_of_gt h)
      rw [List.append_nil]
      rfl
  | cons c text ih =>
      obtain ⟨fuel, rfl⟩ := Nat.exists_eq_succ_of_ne_zero (Nat.ne_of_gt (Nat.zero_lt_of_lt h))
      rw [List.flatMap_cons, List.append_assoc, readString_quoteChar _ _ _ _ (by simp),
        ih _ (Nat.lt_of_succ_lt_succ h)]
      simp

/-- Every character is written as something. -/
theorem length_quoteChar_pos (c : Char) : 0 < (quoteChar c).length := by
  unfold quoteChar
  split
  · decide
  · split
    · decide
    · split <;> simp

/-- A quoted text is at least as long, so the length of what is written is fuel enough. -/
theorem length_le_flatMap_quoteChar (text : Text) : text.length ≤ (text.flatMap quoteChar).length := by
  induction text with
  | nil => exact Nat.le_refl _
  | cons c text ih =>
      have := length_quoteChar_pos c
      rw [List.flatMap_cons, List.length_append, List.length_cons]
      omega

/-! ## Values -/

/-- There is no space to skip in front of anything else. -/
theorem skipSpace_cons (h : isSpace c = false) (text : Text) : skipSpace (c :: text) = c :: text :=
  List.dropWhile_cons_of_neg (by simp [h])

/-- A written value starts with a character that is no space and closes nothing. -/
theorem exists_head_write {value : Value} (h : value.IsPlain) :
    ∃ c more, write value = c :: more ∧ isSpace c = false ∧ c ≠ ']' := by
  cases value with
  | list items => exact ⟨'[', _, rfl, rfl, by decide⟩
  | map fields => exact ⟨'\x7b', _, rfl, rfl, by decide⟩
  | scalar value =>
      cases value with
      | null => exact ⟨'n', _, rfl, rfl, by decide⟩
      | bool value => cases value with
        | false => exact ⟨'f', _, rfl, rfl, by decide⟩
        | true => exact ⟨'t', _, rfl, rfl, by decide⟩
      | text value => exact ⟨'"', _, rfl, rfl, by decide⟩
      | int value =>
          obtain ⟨c, more, hdigits⟩ := List.exists_cons_of_ne_nil (Text.ofInt_ne_nil value)
          refine ⟨c, more, hdigits, ?_⟩
          rcases Text.mem_ofInt (n := value) (hdigits ▸ List.mem_cons_self) with rfl | hdigit
          · exact ⟨rfl, by decide⟩
          · have := Text.isDigit_bounds hdigit
            constructor
            · simp only [isSpace, Bool.or_eq_false_iff, beq_eq_false_iff_ne, ne_eq, and_assoc]
              refine ⟨?_, ?_, ?_, ?_⟩ <;> (rintro rfl; revert hdigit; decide)
            · rintro rfl
              revert hdigit
              decide
      | float value => exact h.elim
      | date value => exact h.elim
      | moment value => exact h.elim

/-- A plain scalar is read back where the rest does not go on with a number. -/
theorem readValue_scalar {value : Scalar} {fuel levels : Nat} (h : value.IsPlain)
    (hrest : EndsNumber rest) :
    readValue (fuel + 1) levels (writeScalar value ++ rest) = .ok (.scalar value, rest) := by
  cases value with
  | null => rfl
  | bool value => cases value <;> rfl
  | text value =>
      show readValue (fuel + 1) levels ('"' :: (value.flatMap quoteChar ++ ['"'] ++ rest)) = _
      have hlength := length_le_flatMap_quoteChar value
      rw [List.append_assoc, List.singleton_append, readValue]
      dsimp only
      rw [readString_quoted _ _ _ _ (by simp only [List.length_append, List.length_cons]; omega)]
      rfl
  | int value =>
      have hplain := readPlain_ofInt h hrest
      obtain ⟨c, more, hdigits⟩ := List.exists_cons_of_ne_nil (Text.ofInt_ne_nil value)
      have hc : c = '-' ∨ c.isDigit = true := Text.mem_ofInt (n := value) (hdigits ▸ List.mem_cons_self)
      have hopens : ∀ d : Char, d ∈ ['"', '[', '\x7b'] → c ≠ d := by
        rintro d hd rfl
        rcases hc with rfl | hdigit
        · exact absurd hd (by decide)
        · simp only [List.mem_cons, List.not_mem_nil, or_false] at hd
          rcases hd with rfl | rfl | rfl <;> exact absurd hdigit (by decide)
      show readValue (fuel + 1) levels (Text.ofInt value ++ rest) = _
      rw [hdigits, List.cons_append] at hplain ⊢
      rw [readValue, hplain]
      · rfl
      · intro rest' heq
        exact hopens '"' (by simp) (List.cons.inj heq).1
      · intro rest' heq
        exact hopens '[' (by simp) (List.cons.inj heq).1
      · intro rest' heq
        exact hopens '\x7b' (by simp) (List.cons.inj heq).1
  | float value => exact h.elim
  | date value => exact h.elim
  | moment value => exact h.elim

/-! ### Mappings -/

/-- Two texts are one key exactly if they are equal. -/
theorem sameKey_text (a b : Text) : (Scalar.text a).sameKey (.text b) = decide (a = b) := by
  by_cases h : a = b
  · subst h
    simp [Scalar.sameKey, Scalar.number?]
  · simp [Scalar.sameKey, Scalar.number?, h]

/-- A new key goes to the end. -/
theorem put_of_new {fields : Fields} {key : Scalar} {value : Value}
    (h : ∀ field ∈ fields, field.1.sameKey key = false) :
    fields.put key value = fields ++ [(key, value)] := by
  induction fields with
  | nil => rfl
  | cons field rest ih =>
      rw [Fields.put, h field List.mem_cons_self,
        ih fun other hother => h other (List.mem_cons_of_mem _ hother)]
      rfl

/-- The keys of a plain mapping are texts. -/
theorem exists_name_of_fieldsPlain {fields : List (Scalar × Value)} (h : Value.FieldsPlain fields) :
    ∀ field ∈ fields, ∃ name, field.1 = .text name := by
  induction fields with
  | nil => exact List.forall_mem_nil _
  | cons field rest ih => exact List.forall_mem_cons.2 ⟨h.1, ih h.2.2⟩

/-- Fields are put one after the other if no key comes twice. -/
theorem foldl_put {fields : List (Scalar × Value)} (start : Fields)
    (htexts : ∀ field ∈ start ++ fields, ∃ name, field.1 = .text name)
    (hnodup : ((start ++ fields).map (·.1)).Nodup) :
    fields.foldl (fun (fields : Fields) entry => fields.put entry.1 entry.2) start =
      start ++ fields := by
  induction fields generalizing start with
  | nil => simp
  | cons field rest ih =>
      have hnew : ∀ other ∈ start, other.1.sameKey field.1 = false := by
        intro other hother
        obtain ⟨name, hname⟩ := htexts other (List.mem_append_left _ hother)
        obtain ⟨key, hkey⟩ := htexts field (List.mem_append_right _ List.mem_cons_self)
        have hdistinct : other.1 ≠ field.1 := by
          rw [List.map_append, List.map_cons] at hnodup
          exact (List.nodup_append.1 hnodup).2.2 _ (List.mem_map_of_mem hother) _ List.mem_cons_self
        rw [hname, hkey] at hdistinct ⊢
        rw [sameKey_text, decide_eq_false_iff_not]
        exact fun heq => hdistinct (congrArg _ heq)
      have happend : start ++ field :: rest = (start ++ [field]) ++ rest := by simp
      rw [List.foldl_cons, put_of_new hnew, ih (start ++ [field]) (happend ▸ htexts) (happend ▸ hnodup),
        happend]

/-- Entries without equal keys are the fields of their mapping. -/
theorem ofEntries_of_nodup {fields : List (Scalar × Value)} (h : Value.FieldsPlain fields)
    (hnodup : (fields.map (·.1)).Nodup) : Fields.ofEntries fields = fields :=
  foldl_put [] (exists_name_of_fieldsPlain h) hnodup

/-! ### Reading what has been written -/

/-- A number ends in front of a bracket. -/
theorem endsNumber_bracket (rest : Text) : EndsNumber (']' :: rest) := .cons (by decide) rest

/-- A number ends in front of a brace. -/
theorem endsNumber_brace (rest : Text) : EndsNumber ('\x7d' :: rest) := .cons (by decide) rest

/-- A number ends in front of a comma. -/
theorem endsNumber_comma (rest : Text) : EndsNumber (',' :: rest) := .cons (by decide) rest

/-- Items that are written do not look like the end of a sequence. -/
theorem exists_head_writeItems {items : List Value} (hne : items ≠ []) (h : Value.ItemsPlain items)
    (rest : Text) :
    ∃ c more, writeItems items ++ rest = c :: more ∧ isSpace c = false ∧ c ≠ ']' := by
  obtain ⟨item, others, rfl⟩ := List.exists_cons_of_ne_nil hne
  obtain ⟨c, more, hwrite, hspace, hclose⟩ := exists_head_write h.1
  cases others with
  | nil => exact ⟨c, more ++ rest, by rw [writeItems, hwrite, List.cons_append], hspace, hclose⟩
  | cons next others =>
      refine ⟨c, more ++ "," ++ writeItems (next :: others) ++ rest, ?_, hspace, hclose⟩
      rw [writeItems, hwrite]
      · rfl
      · simp

/-- Fields that are written start with a quote. -/
theorem exists_head_writeFields {fields : List (Scalar × Value)} (hne : fields ≠ [])
    (h : Value.FieldsPlain fields) (rest : Text) : ∃ more, writeFields fields ++ rest = '"' :: more := by
  obtain ⟨⟨key, value⟩, others, rfl⟩ := List.exists_cons_of_ne_nil hne
  obtain ⟨name, rfl⟩ := h.1
  cases others with
  | nil => exact ⟨_, rfl⟩
  | cons next others => exact ⟨_, rfl⟩

/-- The key of a field and what follows it, up to its value. -/
theorem readString_key (opening name rest : Text) :
    readString opening ((name.flatMap quoteChar ++ '"' :: ':' :: rest).length + 1) []
      (name.flatMap quoteChar ++ '"' :: ':' :: rest) = .ok (name, ':' :: rest) := by
  have hlength := length_le_flatMap_quoteChar name
  refine readString_quoted _ _ _ _ ?_
  simp only [List.length_append, List.length_cons]
  omega

/-- A field is written as its quoted key, a colon and its value. -/
theorem writeField_eq (name : Text) (value : Value) (rest : Text) :
    writeKey (.text name) ++ ":" ++ write value ++ rest =
      '"' :: (name.flatMap quoteChar ++ '"' :: ':' :: (write value ++ rest)) := by
  simp [writeKey, quote]

/-- A field is read up to what follows its value: the end of the mapping, or more fields. -/
theorem readField_write {fuel levels : Nat} {name : Text} {value : Value} (hplain : value.IsPlain)
    (h : readValue fuel levels (write value ++ rest) = .ok (value, rest)) :
    (∀ last, rest = '\x7d' :: last →
      readFields (fuel + 1) levels (writeKey (.text name) ++ ":" ++ write value ++ rest) =
        .ok ([(.text name, value)], last)) ∧
    ∀ behind fields last, rest = ',' :: '"' :: behind →
      readFields fuel levels ('"' :: behind) = .ok (fields, last) →
      readFields (fuel + 1) levels (writeKey (.text name) ++ ":" ++ write value ++ rest) =
        .ok ((.text name, value) :: fields, last) := by
  obtain ⟨c, more, hhead, hspace, -⟩ := exists_head_write hplain
  have hskip : skipSpace (write value ++ rest) = write value ++ rest := by
    rw [hhead, List.cons_append, skipSpace_cons hspace]
  rw [writeField_eq, readFields]
  dsimp only
  rw [readString_key]
  show (∀ last, _ → (readValue fuel levels (skipSpace (write value ++ rest)) >>= fun read => _) = _) ∧
    ∀ behind fields last, _ → _ →
      (readValue fuel levels (skipSpace (write value ++ rest)) >>= fun read => _) = _
  rw [hskip, h]
  constructor
  · rintro last rfl
    rfl
  · rintro behind fields last rfl hfields
    show (readFields fuel levels ('"' :: behind) >>= fun read =>
      .ok ((.text name, value) :: read.1, read.2)) = _
    rw [hfields]
    rfl

mutual

/-- A written value is read back with what follows it. -/
theorem readValue_write : ∀ (value : Value) {fuel levels : Nat} {rest : Text}, value.IsPlain →
    value.nesting ≤ levels → 2 * (write value).length ≤ fuel → EndsNumber rest →
    readValue fuel levels (write value ++ rest) = .ok (value, rest)
  | .scalar value, fuel, levels, rest, hplain, _, hfuel, hrest => by
    obtain ⟨c, more, hwrite, -⟩ := exists_head_write (show (Value.scalar value).IsPlain from hplain)
    rw [hwrite, List.length_cons] at hfuel
    obtain ⟨fuel, rfl⟩ := Nat.exists_eq_succ_of_ne_zero (show fuel ≠ 0 by omega)
    exact readValue_scalar hplain hrest
  | .list items, fuel, levels, rest, hplain, hlevels, hfuel, hrest => by
    have hwrite : write (.list items) ++ rest = '[' :: (writeItems items ++ ']' :: rest) := by
      simp [write]
    have hlength : (write (.list items)).length = (writeItems items).length + 2 := by simp [write]
    rw [Value.nesting] at hlevels
    obtain ⟨fuel, rfl⟩ := Nat.exists_eq_succ_of_ne_zero (show fuel ≠ 0 by omega)
    obtain ⟨levels, rfl⟩ := Nat.exists_eq_succ_of_ne_zero (show levels ≠ 0 by omega)
    rw [hwrite, readValue]
    by_cases hnil : items = []
    · subst hnil
      rfl
    · have hitems : readItems fuel levels (writeItems items ++ ']' :: rest) = .ok (items, rest) :=
        readItems_write items hnil hplain (by omega) (by omega)
      obtain ⟨c, more, hhead, hspace, hclose⟩ := exists_head_writeItems hnil hplain (']' :: rest)
      rw [hhead] at hitems ⊢
      rw [skipSpace_cons hspace]
      dsimp only
      split
      · next heq => exact absurd (List.cons.inj heq).1 hclose
      · rw [hitems]
        rfl
  | .map fields, fuel, levels, rest, hplain, hlevels, hfuel, hrest => by
    have hwrite : write (.map fields) ++ rest = '\x7b' :: (writeFields fields ++ '\x7d' :: rest) := by
      simp [write]
    have hlength : (write (.map fields)).length = (writeFields fields).length + 2 := by simp [write]
    rw [Value.nesting] at hlevels
    obtain ⟨fuel, rfl⟩ := Nat.exists_eq_succ_of_ne_zero (show fuel ≠ 0 by omega)
    obtain ⟨levels, rfl⟩ := Nat.exists_eq_succ_of_ne_zero (show levels ≠ 0 by omega)
    rw [hwrite, readValue]
    by_cases hnil : fields = []
    · subst hnil
      rfl
    · have hfields : readFields fuel levels (writeFields fields ++ '\x7d' :: rest) =
          .ok (fields, rest) :=
        readFields_write fields hnil hplain.2 (by omega) (by omega)
      obtain ⟨more, hhead⟩ := exists_head_writeFields hnil hplain.2 ('\x7d' :: rest)
      rw [hhead] at hfields ⊢
      rw [skipSpace_cons rfl]
      show (readFields fuel levels ('"' :: more) >>= fun read =>
        .ok (Value.map (Fields.ofEntries read.1), read.2)) = _
      rw [hfields]
      exact congrArg (fun fields => Except.ok (Value.map fields, rest))
        (ofEntries_of_nodup hplain.2 hplain.1)

/-- Items are read back, by induction on them; the fuel covers every character twice. -/
theorem readItems_write : ∀ (items : List Value) {fuel levels : Nat} {rest : Text}, items ≠ [] →
    Value.ItemsPlain items → Value.nestingItems items ≤ levels →
    2 * (writeItems items).length + 1 ≤ fuel →
    readItems fuel levels (writeItems items ++ ']' :: rest) = .ok (items, rest)
  | [], _, _, _, hne, _, _, _ => absurd rfl hne
  | [item], fuel, levels, rest, _, hplain, hlevels, hfuel => by
    obtain ⟨fuel, rfl⟩ := Nat.exists_eq_succ_of_ne_zero (show fuel ≠ 0 by omega)
    rw [writeItems] at hfuel ⊢
    rw [Value.nestingItems] at hlevels
    rw [readItems, readValue_write item hplain.1 (by omega) (by omega) (endsNumber_bracket rest)]
    rfl
  | item :: next :: others, fuel, levels, rest, _, hplain, hlevels, hfuel => by
    obtain ⟨fuel, rfl⟩ := Nat.exists_eq_succ_of_ne_zero (show fuel ≠ 0 by omega)
    have hwrite : writeItems (item :: next :: others) ++ ']' :: rest =
        write item ++ ',' :: (writeItems (next :: others) ++ ']' :: rest) := by
      simp [writeItems]
    have hlength : (writeItems (item :: next :: others)).length =
        (write item).length + (writeItems (next :: others)).length + 1 := by
      simp [writeItems]
      omega
    rw [Value.nestingItems] at hlevels
    have hitems : readItems fuel levels (writeItems (next :: others) ++ ']' :: rest) =
        .ok (next :: others, rest) :=
      readItems_write (next :: others) (by simp) hplain.2 (by omega) (by omega)
    obtain ⟨c, more, hhead, hspace, -⟩ := exists_head_writeItems (by simp) hplain.2 (']' :: rest)
    rw [hwrite, readItems, readValue_write item hplain.1 (by omega) (by omega) (endsNumber_comma _)]
    show (readItems fuel levels (skipSpace (writeItems (next :: others) ++ ']' :: rest)) >>= fun read =>
      .ok (item :: read.1, read.2)) = _
    rw [hhead] at hitems ⊢
    rw [skipSpace_cons hspace, hitems]
    rfl

/-- Fields are read back, by induction on them; the fuel covers every character twice. -/
theorem readFields_write : ∀ (fields : List (Scalar × Value)) {fuel levels : Nat} {rest : Text},
    fields ≠ [] → Value.FieldsPlain fields → Value.nestingFields fields ≤ levels →
    2 * (writeFields fields).length + 1 ≤ fuel →
    readFields fuel levels (writeFields fields ++ '\x7d' :: rest) = .ok (fields, rest)
  | [], _, _, _, hne, _, _, _ => absurd rfl hne
  | [(key, value)], fuel, levels, rest, _, hplain, hlevels, hfuel => by
    obtain ⟨⟨name, rfl⟩, hvalue, -⟩ := hplain
    obtain ⟨fuel, rfl⟩ := Nat.exists_eq_succ_of_ne_zero (show fuel ≠ 0 by omega)
    have hlength : (write value).length ≤ (writeFields [(.text name, value)]).length := by
      simp [writeFields]
      omega
    rw [Value.nestingFields] at hlevels
    have hread : readValue fuel levels (write value ++ '\x7d' :: rest) =
        .ok (value, '\x7d' :: rest) :=
      readValue_write value hvalue (by omega) (by omega) (endsNumber_brace rest)
    exact (readField_write hvalue hread).1 rest rfl
  | (key, value) :: next :: others, fuel, levels, rest, _, hplain, hlevels, hfuel => by
    obtain ⟨⟨name, rfl⟩, hvalue, hothers⟩ := hplain
    obtain ⟨fuel, rfl⟩ := Nat.exists_eq_succ_of_ne_zero (show fuel ≠ 0 by omega)
    have hwrite : writeFields ((.text name, value) :: next :: others) ++ '\x7d' :: rest =
        writeKey (.text name) ++ ":" ++ write value ++
          ',' :: (writeFields (next :: others) ++ '\x7d' :: rest) := by
      simp [writeFields]
    have hlength : (write value).length + (writeFields (next :: others)).length + 1 ≤
        (writeFields ((.text name, value) :: next :: others)).length := by
      simp [writeFields]
      omega
    rw [Value.nestingFields] at hlevels
    have hfields : readFields fuel levels (writeFields (next :: others) ++ '\x7d' :: rest) =
        .ok (next :: others, rest) :=
      readFields_write (next :: others) (by simp) hothers (by omega) (by omega)
    obtain ⟨more, hhead⟩ := exists_head_writeFields (by simp) hothers ('\x7d' :: rest)
    rw [hhead] at hfields
    rw [hwrite, hhead]
    have hread : readValue fuel levels (write value ++ ',' :: '"' :: more) =
        .ok (value, ',' :: '"' :: more) :=
      readValue_write value hvalue (by omega) (by omega) (endsNumber_comma _)
    exact (readField_write hvalue hread).2 more _ rest rfl hfields

end

/-- A value is read back from the text it is written as. -/
theorem readWithin_write {value : Value} {levels : Nat} (hplain : value.IsPlain)
    (hlevels : value.nesting ≤ levels) : readWithin levels (write value) = .ok value := by
  obtain ⟨c, more, hhead, hspace, -⟩ := exists_head_write hplain
  have hread : readValue (2 * (write value).length + 2) levels (write value ++ []) = .ok (value, []) :=
    readValue_write value hplain hlevels (by omega) .nil
  rw [List.append_nil] at hread
  have hskip : skipSpace (write value) = write value := by rw [hhead, skipSpace_cons hspace]
  rw [readWithin, hskip, hread]
  rfl

end Json

end Scaffold
