import Scaffold.Dart.Bloc
import Scaffold.Endpoint.Extraction
import Scaffold.Proofs.Naming.Recasing

/-!
# Names derived from method names

All names that are declared for an endpoint are the method name, or its Pascal case, with something
around it. The Pascal case of a method name can be undone (`pascal_inj_of_camel`), and no ending of a
class name is the end of another one (`not_suffix_ending`). So endpoints with different method names
share no name, and classes of different kinds never do (`derivedNames_apart`).
-/

namespace Scaffold

variable {a b text tail : Text} {c : Char} {feature : Feature} {endpoint one other : Endpoint}

/-! ## Names in camel case -/

/-- A name without separators whose first character, if any, is in ASCII and no capital. -/
structure IsCamel (name : Text) : Prop where
  solid : Solid name
  start : ∀ c ∈ name.head?, c.toNat < 0x80 ∧ isCapital c = false

instance : Decidable (IsCamel text) :=
  decidable_of_iff (Solid text ∧
      text.head?.all (fun c => decide (c.toNat < 0x80) && !isCapital c) = true)
    ⟨fun ⟨hsolid, hstart⟩ => ⟨hsolid, by simpa [Option.all_eq_true] using hstart⟩,
      fun h => ⟨h.solid, by simpa [Option.all_eq_true] using h.start⟩⟩

theorem IsCamel.append (h : IsCamel a) (hne : a ≠ []) (hb : Solid b) : IsCamel (a ++ b) := by
  obtain ⟨c, rest, rfl⟩ := List.exists_cons_of_ne_nil hne
  exact ⟨h.solid.append hb, h.start⟩

/-- An ASCII text in camel case. -/
theorem isCamel_camel (hascii : ∀ c ∈ text, c.toNat < 0x80) : IsCamel text.camel := by
  refine ⟨Text.solid_camel text, fun c hc => ?_⟩
  rw [Text.camel] at hc
  cases hpascal : text.pascal with
  | nil => simp [hpascal] at hc
  | cons d rest =>
      have hd : d.toNat < 0x80 := by
        obtain ⟨e, he, -, rfl | hupper⟩ := Text.mem_pascal (hpascal ▸ List.mem_cons_self)
        · exact hascii d he
        · obtain ⟨f, hf, hfascii, -⟩ := exists_upperChar_ascii (hascii e he)
          rw [hf] at hupper
          rwa [List.mem_singleton.1 hupper]
      obtain ⟨e, hlower, heascii, hecapital⟩ := exists_lowerChar_ascii hd
      rw [hpascal] at hc
      obtain rfl : e = c := by simpa [hlower] using hc
      exact ⟨heascii, hecapital⟩

/-- The Pascal case of names in camel case can be undone. -/
theorem pascal_inj_of_camel (ha : IsCamel a) (hb : IsCamel b) (h : a.pascal = b.pascal) : a = b := by
  rw [Text.pascal_of_solid ha.solid, Text.pascal_of_solid hb.solid] at h
  cases a with
  | nil =>
      cases b with
      | nil => rfl
      | cons d b =>
          obtain ⟨e, rest, hupper, -⟩ := upperChar_eq_cons d
          simp [Text.capitalize, hupper] at h
  | cons c a =>
      obtain ⟨hc, hc'⟩ := ha.start c rfl
      obtain ⟨e, hupper, -, -⟩ := exists_upperChar_ascii hc
      cases b with
      | nil => simp [Text.capitalize, hupper] at h
      | cons d b =>
          obtain ⟨hd, hd'⟩ := hb.start d rfl
          obtain ⟨f, hupper', -, -⟩ := exists_upperChar_ascii hd
          rw [Text.capitalize, Text.capitalize, hupper, hupper'] at h
          obtain ⟨rfl, hrest⟩ : e = f ∧ a = b := by simpa using h
          rw [upperChar_inj hc hd hc' hd' (hupper.trans hupper'.symm), hrest]

/-- A text that starts with a capital stays behind the Pascal case of a name. -/
theorem pascal_append (ha : Solid a) (htail : Solid tail) (hcapital : tail.capitalize = tail) :
    (a ++ tail).pascal = a.pascal ++ tail := by
  rw [Text.pascal_of_solid (ha.append htail), Text.pascal_of_solid ha]
  cases a with
  | nil => exact hcapital
  | cons c a => simp [Text.capitalize]

/-- No character in lower case is an ASCII capital. -/
theorem not_capital_of_mem_lowerChar {d : Char} (h : d ∈ lowerChar c) : isCapital d = false := by
  rw [Bool.eq_false_iff, Ne, isCapital_iff]
  rcases lowerChar_cases c with ⟨heq, hsmall⟩ | ⟨hcapital, heq⟩ | heq | ⟨run, hrun, k, hk, heq⟩
  · rw [heq, List.mem_singleton] at h
    rw [← isCapital_iff, h, hsmall]
    decide
  · have hrange := isCapital_iff.1 hcapital
    rw [heq, List.mem_singleton] at h
    rw [h, toNat_lower hcapital]
    omega
  · rw [heq] at h
    revert d
    decide
  · have hrange := lowerRuns_range run hrun
    have hvalid : (run.target + k).isValidChar := by
      rw [Nat.isValidChar]
      omega
    rw [heq, List.mem_singleton] at h
    rw [h, toNat_ofNat hvalid]
    omega

/-- A name in camel case that starts in ASCII does so without a capital. -/
theorem isCamel_camel_of_start (hstart : ∀ c ∈ text.camel.head?, c.toNat < 0x80) :
    IsCamel text.camel := by
  refine ⟨Text.solid_camel text, fun c hc => ⟨hstart c hc, ?_⟩⟩
  rw [Text.camel] at hc
  cases hpascal : text.pascal with
  | nil => simp [hpascal] at hc
  | cons d rest =>
      cases hlower : lowerChar d with
      | nil =>
          have hne : lowerChar d ≠ [] := by
            rcases lowerChar_cases d with ⟨heq, -⟩ | ⟨-, heq⟩ | heq | ⟨run, -, k, -, heq⟩ <;>
              rw [heq] <;> exact List.cons_ne_nil _ _
          exact absurd hlower hne
      | cons e more =>
          obtain rfl : e = c := by simpa [hpascal, hlower] using hc
          exact not_capital_of_mem_lowerChar (hlower ▸ List.mem_cons_self)

/-- An endpoint with a supported verb whose operation id and path are ASCII texts. -/
structure Endpoint.IsAscii (endpoint : Endpoint) : Prop where
  method_mem : endpoint.method ∈ supportedVerbs
  id : ∀ id, endpoint.operationId = some id → ∀ c ∈ id, c.toNat < 0x80
  path : ∀ c ∈ endpoint.path, c.toNat < 0x80

theorem isCamel_verbs :
    ∀ verb ∈ supportedVerbs, IsCamel verb.lower ∧
      ∃ word ∈ verbWord? verb.lower, word ≠ [] ∧ IsCamel word := by
  decide +kernel

theorem isCamel_pathMethodName (hverb : endpoint.method ∈ supportedVerbs) :
    IsCamel endpoint.pathMethodName := by
  obtain ⟨hverb, word, hfound, hne, hword⟩ := isCamel_verbs _ hverb
  rw [Endpoint.pathMethodName]
  split
  · exact hverb
  · next segment hlast =>
    rw [Option.mem_def.1 hfound]
    exact hword.append hne (Text.solid_pascal segment)

theorem Endpoint.IsAscii.isCamel_methodName (h : endpoint.IsAscii) : IsCamel endpoint.methodName := by
  rw [Endpoint.methodName]
  split
  · next hid => exact isCamel_camel (h.id _ hid)
  · exact isCamel_pathMethodName h.method_mem

/-- A method's name is in camel case if it starts in ASCII. -/
theorem isCamel_methodName_of_start (hverb : endpoint.method ∈ supportedVerbs)
    (hstart : ∀ c ∈ endpoint.methodName.head?, c.toNat < 0x80) : IsCamel endpoint.methodName := by
  rw [Endpoint.methodName] at hstart ⊢
  split
  · next hid =>
    rw [hid] at hstart
    exact isCamel_camel_of_start hstart
  · exact isCamel_pathMethodName hverb

/-! ## Kinds of names -/

/-- The kinds of names that are declared for an endpoint. The plain states are loading, success and
error. -/
inductive NameKind
  | requestModel
  | responseModel
  | stateField
  | event
  | caseClass
  | handler
  | plainEvent
  | plainHandler
  | plainState (index : Fin 3)
  deriving DecidableEq

namespace NameKind

/-- The name of a kind that is declared for an endpoint. -/
def name (feature : Feature) (endpoint : Endpoint) : NameKind → Text
  | requestModel => endpoint.requestModel
  | responseModel => endpoint.responseModel
  | stateField => endpoint.stateField
  | event => endpoint.eventName
  | caseClass => endpoint.eventName.pascal
  | handler => endpoint.handlerName
  | plainEvent => endpoint.plainEvent
  | plainHandler => endpoint.plainHandler
  | plainState index => ((plainStates feature endpoint).get index).1

/-- The kinds of classes. -/
def classes : List NameKind :=
  [requestModel, responseModel, caseClass, plainEvent, plainState 0, plainState 1, plainState 2]

theorem plainState_mem : ∀ index, plainState index ∈ classes := by
  decide

/-- What stands behind the Pascal case of the method name in the name of a class. -/
def ending : NameKind → Text
  | requestModel => "Request"
  | responseModel => "Response"
  | caseClass => "Requested"
  | plainEvent => "Event"
  | plainState 0 => "LoadingState"
  | plainState 1 => "SuccessState"
  | plainState 2 => "ErrorState"
  | _ => []

theorem not_suffix_ending :
    ∀ kind ∈ classes, ∀ kind' ∈ classes, kind ≠ kind' → ¬ kind.ending <:+ kind'.ending := by
  decide

/-- The name of a class is the Pascal case of the method name with the ending of its kind. -/
theorem name_eq (h : Solid endpoint.methodName) {kind : NameKind} (hkind : kind ∈ classes) :
    kind.name feature endpoint = endpoint.baseName ++ kind.ending := by
  have hcase : endpoint.eventName.pascal = endpoint.baseName ++ ("Requested" : Text) :=
    pascal_append h (by decide) (by decide)
  simp only [classes, List.mem_cons, List.not_mem_nil, or_false] at hkind
  rcases hkind with rfl | rfl | rfl | rfl | rfl | rfl | rfl
  · rfl
  · rfl
  · exact hcase
  · rfl
  · rfl
  · rfl
  · rfl

/-- Classes of different kinds have different names, whatever the method names are. -/
theorem name_ne (hone : Solid one.methodName) (hother : Solid other.methodName)
    {kind kind' : NameKind} (hkind : kind ∈ classes) (hkind' : kind' ∈ classes) (hne : kind ≠ kind') :
    kind.name feature one ≠ kind'.name feature other := by
  rw [name_eq hone hkind, name_eq hother hkind']
  intro heq
  rcases List.append_eq_append_iff.1 heq with ⟨between, -, hending⟩ | ⟨between, -, hending⟩
  · exact not_suffix_ending _ hkind' _ hkind hne.symm ⟨between, hending.symm⟩
  · exact not_suffix_ending _ hkind _ hkind' hne ⟨between, hending.symm⟩

/-- A name of any kind gives the method name away. -/
theorem methodName_eq (hone : IsCamel one.methodName) (hother : IsCamel other.methodName)
    {kind : NameKind} (h : kind.name feature one = kind.name feature other) :
    one.methodName = other.methodName := by
  have hclass : kind ∈ classes → one.methodName = other.methodName := by
    intro hkind
    rw [name_eq hone.solid hkind, name_eq hother.solid hkind] at h
    exact pascal_inj_of_camel hone hother (List.append_cancel_right h)
  cases kind with
  | requestModel => exact hclass (by decide)
  | responseModel => exact hclass (by decide)
  | stateField => exact List.append_cancel_right h
  | event => exact List.append_cancel_right h
  | caseClass => exact hclass (by decide)
  | handler => exact (List.cons.inj h).2
  | plainEvent => exact hclass (by decide)
  | plainHandler =>
      have hbase := List.append_cancel_right (List.append_cancel_left h)
      exact pascal_inj_of_camel hone hother hbase
  | plainState index =>
      exact hclass (plainState_mem index)

end NameKind

/-- Endpoints with different method names have different names of every kind, and the names of
classes of different kinds differ within an endpoint and between endpoints. -/
theorem derivedNames_apart (feature : Feature) (hone : one.IsAscii) (hother : other.IsAscii) :
    (one.methodName ≠ other.methodName →
      ∀ kind : NameKind, kind.name feature one ≠ kind.name feature other) ∧
    ∀ kind ∈ NameKind.classes, ∀ kind' ∈ NameKind.classes, kind ≠ kind' →
      kind.name feature one ≠ kind'.name feature one ∧
        kind.name feature one ≠ kind'.name feature other := by
  have hone := hone.isCamel_methodName
  have hother := hother.isCamel_methodName
  constructor
  · exact fun hne kind heq => hne (NameKind.methodName_eq hone hother heq)
  · intro kind hkind kind' hkind' hne
    exact ⟨NameKind.name_ne hone.solid hone.solid hkind hkind' hne,
      NameKind.name_ne hone.solid hother.solid hkind hkind' hne⟩

theorem derivedNames_apart_users_orders :
    let users : Endpoint := { path := "/users", method := "get" }
    let orders : Endpoint := { path := "/orders", method := "post", operationId := some "list-orders" }
    users.methodName ≠ orders.methodName ∧
      NameKind.responseModel.name ⟨"shop", "news", "model"⟩ users ≠
        NameKind.responseModel.name ⟨"shop", "news", "model"⟩ orders := by
  have hne : Endpoint.methodName { path := "/users", method := "get" } ≠
      Endpoint.methodName
        { path := "/orders", method := "post", operationId := some "list-orders" } := by
    decide +kernel
  exact ⟨hne, (derivedNames_apart ⟨"shop", "news", "model"⟩
    ⟨by decide, by simp, by decide⟩ ⟨by decide, by decide, by decide⟩).1 hne .responseModel⟩

end Scaffold
