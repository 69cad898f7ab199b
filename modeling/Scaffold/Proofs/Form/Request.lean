import Scaffold.Form.Server
import Scaffold.Proofs.Document.JsonText

/-!
# Requests read back

A request to generate that is sent as a JSON text with the name of a feature and numbers of endpoints
is read as that request (`readGenerateRequest_formBody`).
-/

namespace Scaffold

/-! ## Bytes -/

/-- The bytes of a text. -/
def Text.utf8 (text : Text) : List UInt8 := text.flatMap String.utf8EncodeChar

theorem fromUTF8?_utf8 (text : Text) :
    String.fromUTF8? (ByteArray.mk (Text.utf8 text).toArray) = some (String.ofList text) := by
  have hbytes : ByteArray.mk (Text.utf8 text).toArray = text.utf8Encode := by
    rw [← List.data_toByteArray]
    rfl
  rw [hbytes, String.fromUTF8?, dif_pos ByteArray.isValidUTF8_utf8Encode, Option.some.injEq,
    ← String.toByteArray_inj, String.toByteArray_ofList]
  rfl

/-- A character with a single byte that is not zero. -/
def IsPlainByte (c : Char) : Prop := 0 < c.toNat ∧ c.toNat < 0x80

instance (c : Char) : Decidable (IsPlainByte c) := inferInstanceAs (Decidable (_ ∧ _))

theorem utf8EncodeChar_of_plain {c : Char} (h : IsPlainByte c) :
    String.utf8EncodeChar c = [UInt8.ofNat c.toNat] := by
  have hle : c.val.toNat ≤ 0x7f := Nat.le_of_lt_succ h.2
  rw [String.utf8EncodeChar]
  simp only [hle, if_true]
  rfl

/-- A byte that is neither zero nor starts a mark. -/
theorem byte_of_plain {c : Char} (h : IsPlainByte c) :
    UInt8.ofNat c.toNat ∉ ([0x00, 0xef, 0xfe, 0xff] : List UInt8) := by
  have hnat : (UInt8.ofNat c.toNat).toNat = c.toNat := Nat.mod_eq_of_lt (by have := h.2; omega)
  intro hmem
  have hmem' := List.mem_map_of_mem (f := UInt8.toNat) hmem
  rw [hnat] at hmem'
  obtain ⟨hpos, hlt⟩ := h
  simp at hmem'
  omega

/-- Bytes without a mark and without zeros in front are taken as they are. -/
theorem ofZeros_of_ne_zero {x y : UInt8} (hx : x ≠ 0) (hy : y ≠ 0) (rest : List UInt8) :
    Encoding.ofZeros (x :: y :: rest) = .utf8 := by
  rcases rest with _ | ⟨z, _ | ⟨w, rest⟩⟩
  · simp [Encoding.ofZeros, hx, hy]
  · rfl
  · simp [Encoding.ofZeros, hx, hy]

/-- The bytes of a text that starts with two ASCII characters stand for the text. -/
theorem textOfBytes?_utf8 {a b : Char} (ha : IsPlainByte a) (hb : IsPlainByte b) (rest : Text) :
    textOfBytes? (Text.utf8 (a :: b :: rest)) = some (a :: b :: rest) := by
  have hbytes : Text.utf8 (a :: b :: rest) =
      UInt8.ofNat a.toNat :: UInt8.ofNat b.toNat :: Text.utf8 rest := by
    simp only [Text.utf8, List.flatMap_cons, utf8EncodeChar_of_plain ha, utf8EncodeChar_of_plain hb,
      List.singleton_append]
  have hfirst := byte_of_plain ha
  have hsecond := byte_of_plain hb
  have hzeros : Encoding.ofZeros (Text.utf8 (a :: b :: rest)) = .utf8 := by
    rw [hbytes]
    exact ofZeros_of_ne_zero (fun h => hfirst (by simp [h])) (fun h => hsecond (by simp [h])) _
  have hdetect : Encoding.detect (Text.utf8 (a :: b :: rest)) =
      (.utf8, Text.utf8 (a :: b :: rest)) := by
    rw [← hzeros, hbytes]
    unfold Encoding.detect
    -- no mark starts with the first byte
    split
    case h_6 => rfl
    all_goals
      next heq =>
      rw [(List.cons.inj heq).1] at hfirst
      exact absurd hfirst (by decide)
  rw [textOfBytes?, hdetect]
  show (String.fromUTF8? _).map String.toList = _
  rw [fromUTF8?_utf8, Option.map_some, String.toList_ofList]

/-! ## Requests -/

/-- The value of a request for a feature with endpoints of the given numbers. -/
def formValue (name : Text) (indices : List Int) : Value :=
  .object [("featureName", .text name), ("selectedIndices", .list (indices.map .int))]

/-- The bytes of a request for a feature with endpoints of the given numbers. -/
def formBody (name : Text) (indices : List Int) : List UInt8 :=
  Text.utf8 (Json.write (formValue name indices))

variable {name : Text} {indices : List Int}

theorem itemsPlain_ints (h : ∀ n ∈ indices, Text.IsShort n) :
    Value.ItemsPlain (indices.map .int) := by
  induction indices with
  | nil => exact trivial
  | cons n rest ih =>
      exact ⟨h n List.mem_cons_self, ih fun m hm => h m (List.mem_cons_of_mem _ hm)⟩

theorem nestingItems_ints (indices : List Int) : Value.nestingItems (indices.map .int) = 0 := by
  induction indices with
  | nil => rfl
  | cons n rest ih =>
      rw [List.map_cons, Value.nestingItems, ih]
      rfl

theorem isPlain_formValue (h : ∀ n ∈ indices, Text.IsShort n) : (formValue name indices).IsPlain := by
  have hnodup : ([.text "featureName", .text "selectedIndices"] : List Scalar).Nodup := by decide
  exact ⟨hnodup, ⟨_, rfl⟩, trivial, ⟨_, rfl⟩, itemsPlain_ints h, trivial⟩

theorem nesting_formValue : (formValue name indices).nesting = 2 := by
  show max 0 (max (Value.nestingItems (indices.map .int) + 1) 0) + 1 = 2
  rw [nestingItems_ints]
  rfl

theorem checkIntegers_ints (start : Nat) (indices : List Int) :
    Checked.all (((indices.map Value.int).zipIdx start).map fun item =>
      (checkInteger item.1).under (Text.ofNat item.2)) = .ok indices := by
  induction indices generalizing start with
  | nil => rfl
  | cons n rest ih =>
      rw [List.map_cons, List.zipIdx_cons, List.map_cons, Checked.all, ih]
      rfl

theorem ofValue_formValue :
    GenerateRequest.ofValue (formValue name indices) = .ok ⟨name, indices, {}⟩ := by
  have hindices : checkIntegers (.list (indices.map .int)) = .ok indices := checkIntegers_ints 0 indices
  show (((Checked.accept GenerateRequest.mk).apply (Checked.under "featureName" (.ok name))).apply
    (Checked.under "selectedIndices" (checkIntegers (.list (indices.map .int))))).apply (.ok {}) = _
  rw [hindices]
  rfl

/-- A request is read as it has been sent. -/
theorem readGenerateRequest_formBody (h : ∀ n ∈ indices, Text.IsShort n) :
    readGenerateRequest (formBody name indices) = .ok ⟨name, indices, {}⟩ := by
  have htext : ∃ rest, Json.write (formValue name indices) = '\x7b' :: '"' :: rest := ⟨_, rfl⟩
  obtain ⟨rest, htext⟩ := htext
  have hbytes : textOfBytes? (formBody name indices) = some (Json.write (formValue name indices)) := by
    rw [formBody, htext]
    exact textOfBytes?_utf8 (by decide) (by decide) rest
  have hread : Json.readWithin formNestingLimit (Json.write (formValue name indices)) =
      .ok (formValue name indices) :=
    Json.readWithin_write (isPlain_formValue h) (by rw [nesting_formValue]; decide)
  have hne : (formBody name indices).isEmpty = false := by
    rw [formBody, htext]
    rfl
  rw [readGenerateRequest, hne, hbytes]
  simp only [Bool.false_eq_true, if_false, hread, ofValue_formValue]
  rfl

end Scaffold
