import Scaffold.Text.Basic

/-!
# Marks for a terminal

Control sequences set colours and move the cursor of a terminal. A sequence is the escape character
and an opening bracket, then parameters, then spaces and signs, and one final character.
`Text.plain` leaves them out; a text without the escape character is plain: `plain_of_not_mem`.
-/

namespace Scaffold

/-- The character that a control sequence starts with. -/
def escapeCharacter : Char := Char.ofNat 0x1b

/-- The characters of the parameters in a control sequence. -/
def isSequenceParameter (c : Char) : Bool := 0x30 ≤ c.toNat && c.toNat ≤ 0x3f

/-- The characters between the parameters and the end of a control sequence. -/
def isSequenceSign (c : Char) : Bool := 0x20 ≤ c.toNat && c.toNat ≤ 0x2f

/-- The characters that end a control sequence. -/
def isSequenceEnd (c : Char) : Bool := 0x40 ≤ c.toNat && c.toNat ≤ 0x7e

namespace Text

/-- The length of a control sequence behind its opening bracket, if there is one. -/
def sequenceLength? (text : Text) : Option Nat :=
  let parameters := (text.takeWhile isSequenceParameter).length
  let signs := ((text.drop parameters).takeWhile isSequenceSign).length
  match text.drop (parameters + signs) with
  | c :: _ => if isSequenceEnd c then some (parameters + signs + 1) else none
  | [] => none

/-- The length of the control sequence at the start of a text, zero if there is none. -/
def markLength : Text → Nat
  | e :: '[' :: rest =>
    if e = escapeCharacter then ((sequenceLength? rest).map (· + 2)).getD 0 else 0
  | _ => 0

/-- A text without the control sequences in it, `skipped` more characters being part of one. -/
def plainFrom : (skipped : Nat) → Text → Text
  | _, [] => []
  | skipped + 1, _ :: rest => plainFrom skipped rest
  | 0, c :: rest =>
    match markLength (c :: rest) with
    | 0 => c :: plainFrom 0 rest
    | length + 1 => plainFrom length rest

/-- A text without the control sequences in it. -/
def plain (text : Text) : Text := plainFrom 0 text

theorem markLength_of_ne {c : Char} {rest : Text} (h : c ≠ escapeCharacter) :
    markLength (c :: rest) = 0 := by
  unfold markLength
  split
  · next e _ heq =>
    obtain ⟨rfl, _⟩ := List.cons.inj heq
    simp [h]
  · rfl

/-- A text without the escape character stays as it is. -/
theorem plain_of_not_mem {text : Text} (h : escapeCharacter ∉ text) : text.plain = text := by
  induction text with
  | nil => rfl
  | cons c rest ih =>
    simp only [List.mem_cons, not_or] at h
    have hrest : plainFrom 0 rest = rest := ih h.2
    simp [plain, plainFrom, markLength_of_ne (Ne.symm h.1), hrest]

end Text

end Scaffold
