import Scaffold.Document.Calendar
import Scaffold.Number.Binary64

/-!
# Document values

The tree that a JSON or YAML document stands for. Mappings keep the order of their keys, and a key
that is put again keeps its place: `Fields.put_of_mem`.

## Limits

Of the limits that a machine puts on documents two are kept. Whole numbers of more than
`Text.digitLimit` digits are neither read nor shown, and JSON with more than `nestingLimit` sequences
and mappings around each other is refused in a file, with more than `formNestingLimit` in a form.
There are no others: YAML is read to any depth, and what walks over a value that has been read, such
as its display or the types of schemas (`FieldType.ofSchema`), follows it all the way.
-/

namespace Scaffold

/-- A value without parts. -/
inductive Scalar
  | null
  | bool (value : Bool)
  | int (value : Int)
  | float (value : Binary64)
  | text (value : Text)
  | date (value : Date)
  | moment (value : Moment)
  deriving DecidableEq, Repr

/-- A document: a scalar, a sequence, or a mapping from scalars in the order of its keys. -/
inductive Value
  | scalar (value : Scalar)
  | list (items : List Value)
  | map (fields : List (Scalar × Value))

/-- The entries of a mapping. -/
abbrev Fields := List (Scalar × Value)

namespace Scalar

/-- The number that a scalar counts as when it is compared, as a fraction. Truth values count as
zero and one. -/
def number? : Scalar → Option (Int × Nat)
  | bool value => some (if value then 1 else 0, 1)
  | int value => some (value, 1)
  | float value => value.toFraction?
  | _ => none

/-- Whether two scalars are the same key: numbers by their value, moments by the point of time, all
else by being equal. -/
def sameKey (a b : Scalar) : Bool :=
  match a.number?, b.number?, a, b with
  | some m, some n, _, _ => m.1 * n.2 == n.1 * m.2
  | _, _, moment m, moment n => m.isSame n
  | _, _, _, _ => a == b

/-- Null, false, zero and the empty text count as absent. -/
def isAbsent : Scalar → Bool
  | null => true
  | bool value => !value
  | int value => value == 0
  | float value => value.isZero
  | text value => value.isEmpty
  | _ => false

/-- The word for the kind of a scalar. -/
def kind : Scalar → Text
  | null => "NoneType"
  | bool _ => "bool"
  | int _ => "int"
  | float _ => "float"
  | text _ => "str"
  | date _ => "datetime.date"
  | moment _ => "datetime.datetime"

end Scalar

namespace Value

def null : Value := scalar .null

def bool (value : Bool) : Value := scalar (.bool value)

def int (value : Int) : Value := scalar (.int value)

def nat (value : Nat) : Value := scalar (.int value)

def text (value : Text) : Value := scalar (.text value)

/-- A sequence of texts. -/
def texts (values : List Text) : Value := list (values.map text)

/-- A mapping with texts as keys. -/
def object (fields : List (Text × Value)) : Value :=
  map (fields.map fun field => (.text field.1, field.2))

/-- Absent scalars, empty sequences and empty mappings count as absent. -/
def isAbsent : Value → Bool
  | scalar value => value.isAbsent
  | list items => items.isEmpty
  | map fields => fields.isEmpty

def isNull : Value → Bool
  | scalar .null => true
  | _ => false

def text? : Value → Option Text
  | scalar (.text value) => some value
  | _ => none

def fields? : Value → Option Fields
  | map fields => some fields
  | _ => none

/-- The word for the kind of a value. -/
def kind : Value → Text
  | scalar value => value.kind
  | list _ => "list"
  | map _ => "dict"

end Value

namespace Fields

/-- The value under a text. -/
def get? (fields : Fields) (key : Text) : Option Value :=
  (fields.find? fun field => field.1 == .text key).map (·.2)

/-- The value under a text, null if there is none. -/
def get (fields : Fields) (key : Text) : Value := (fields.get? key).getD .null

/-- The value under a text unless it counts as absent. -/
def present? (fields : Fields) (key : Text) : Option Value :=
  (fields.get? key).filter fun value => !value.isAbsent

/-- Puts a value under a key: a key that is there keeps its place, a new one comes last. -/
def put : Fields → Scalar → Value → Fields
  | [], key, value => [(key, value)]
  | field :: rest, key, value =>
    if field.1.sameKey key then (field.1, value) :: rest else field :: put rest key value

/-- The entries in order, a later value replacing an earlier one under the same key. -/
def ofEntries (entries : List (Scalar × Value)) : Fields :=
  entries.foldl (fun fields entry => fields.put entry.1 entry.2) []

/-- A key that is there keeps its place. -/
theorem put_of_mem {fields : Fields} {key : Scalar} {value : Value}
    (h : ∃ field ∈ fields, field.1.sameKey key = true) :
    (fields.put key value).map (·.1) = fields.map (·.1) := by
  induction fields with
  | nil => simp at h
  | cons field rest ih =>
    obtain ⟨other, hmem, hsame⟩ := h
    simp only [put]
    split
    · rfl
    · next hne =>
      rcases List.mem_cons.1 hmem with rfl | hrest
      · exact absurd hsame hne
      · simp [ih ⟨other, hrest, hsame⟩]

end Fields

end Scaffold
