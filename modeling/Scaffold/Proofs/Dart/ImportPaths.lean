import Scaffold.Dart.Bloc
import Scaffold.Proofs.Dart.Characters

/-!
# Import paths

What the paths of imports consist of: the names of the project and of the feature, other words, and
the three signs between them.
-/

namespace Scaffold

variable {feature : Feature} {endpoint : Endpoint} {endpoints : List Endpoint}
  {accepts : Char → Bool} {folder ending path : Text}

/-! ## Imports that do not depend on the endpoints -/

/-- The import path of the annotations for unions. -/
def freezedImport : Text := "package:freezed_annotation/freezed_annotation.dart"

/-- The imports of generated files from other packages. -/
def foreignPackages : List Text :=
  ["package:dio/dio.dart", "package:retrofit/retrofit.dart", "package:flutter/material.dart",
    "package:flutter_bloc/flutter_bloc.dart", freezedImport, injectableImport, eitherImport]

/-- The imports of generated files from other projects. -/
def foreignImports : List Text := "dart:async" :: foreignPackages

section

variable {holds : Text → Prop} (hpackages : ∀ path ∈ foreignPackages, holds path)
  (herror : holds feature.errorImport)

include hpackages herror

/-- What holds of the imports from other packages and of those from the feature itself holds of all
that a class file imports. -/
theorem ClassFile.forall_fixedImports (file : ClassFile) (hservice : holds feature.serviceImport)
    (hsource : holds feature.sourceImport) (hrepository : holds feature.repositoryImport) :
    ∀ path ∈ file.fixedImports feature, holds path := by
  simp only [foreignPackages, List.forall_mem_cons] at hpackages
  cases file <;> simp only [ClassFile.fixedImports, List.forall_mem_cons, List.not_mem_nil,
    false_imp_iff, implies_true, hpackages, hservice, hsource, hrepository, herror, and_self]

/-- What holds of the imports from other packages and of those from the feature itself holds of all
that the bloc imports. -/
theorem forall_blocFixedImports (hasync : holds "dart:async")
    (huseCases : holds feature.useCasesImport) : ∀ path ∈ blocFixedImports feature, holds path := by
  simp only [foreignPackages, List.forall_mem_cons] at hpackages
  obtain ⟨-, -, -, hbloc, hfreezed, hinject, -⟩ := hpackages
  exact List.forall_mem_cons.2 ⟨hasync, List.forall_mem_cons.2 ⟨hbloc, List.forall_mem_cons.2
    ⟨hfreezed, List.forall_mem_cons.2 ⟨hinject, List.forall_mem_cons.2 ⟨herror,
      List.forall_mem_singleton.2 huseCases⟩⟩⟩⟩⟩

end

/-! ## Characters of paths -/

/-- The characters of import paths. -/
def isPathChar (c : Char) : Bool := isAsciiWordChar c || c == ':' || c == '/' || c == '.'

/-- ASCII words stand in paths. -/
theorem AsciiWordy.pathChars {name : Text} (h : AsciiWordy name) : Consists isPathChar name :=
  h.consists.mono fun c hc => by simp [isPathChar, hc]

/-- The name of a model's file stands in paths. -/
theorem pathChars_modelFile {model : Text} (h : AsciiWordy model) :
    Consists isPathChar (modelFile model) :=
  .append h.snake.pathChars (.literal (by decide))

/-- The imports from other projects are paths. -/
theorem pathChars_foreignImports : ∀ path ∈ foreignImports, Consists isPathChar path := by
  unfold foreignImports foreignPackages freezedImport injectableImport eitherImport
  simp only [List.forall_mem_cons]
  exact ⟨.literal (by decide), .literal (by decide), .literal (by decide), .literal (by decide),
    .literal (by decide), .literal (by decide), .literal (by decide), .literal (by decide),
    List.forall_mem_nil _⟩

namespace Feature

/-- The characters of import paths and those of the names of project and feature are accepted. -/
structure Spells (feature : Feature) (accepts : Char → Bool) : Prop where
  sign : ∀ c, isPathChar c = true → accepts c = true
  project : Consists accepts feature.project
  name : Consists accepts feature.name

/-- Names that are ASCII words stand in paths. -/
theorem Plain.spells (h : feature.Plain) : feature.Spells isPathChar :=
  ⟨fun _ hc => hc, h.project.pathChars, h.name.pathChars⟩

namespace Spells

variable (h : feature.Spells accepts)

include h

/-- Whatever stands in paths is accepted. -/
theorem sign_text {text : Text} (htext : Consists isPathChar text) : Consists accepts text :=
  htext.mono h.sign

/-- The path of the feature's package is accepted. -/
theorem package : Consists accepts feature.package :=
  ((Consists.append (h.sign_text (.literal (by decide))) h.project).append
    (h.sign_text (.literal (by decide)))).append h.name

/-- The path of a file of the feature is accepted. -/
theorem fileImport (hfolder : Consists isPathChar folder) (hending : Consists isPathChar ending) :
    Consists accepts (feature.fileImport folder ending) :=
  ((((h.package.append (h.sign_text (.literal (by decide)))).append (h.sign_text hfolder)).append
    (h.sign_text (.literal (by decide)))).append h.name).append (h.sign_text hending)

/-- The path of the error union is accepted. -/
theorem errorImport : Consists accepts feature.errorImport :=
  (Consists.append (h.sign_text (.literal (by decide))) h.project).append
    (h.sign_text (.literal (by decide)))

/-- The paths of other packages are accepted. -/
theorem foreignPackages : ∀ path ∈ foreignPackages, Consists accepts path := fun path hpath =>
  h.sign_text (pathChars_foreignImports path (List.mem_cons_of_mem _ hpath))

/-- The imports of a class file that do not depend on the endpoints. -/
theorem fixedImports (file : ClassFile) : ∀ path ∈ file.fixedImports feature, Consists accepts path :=
  file.forall_fixedImports h.foreignPackages h.errorImport
    (h.fileImport (.literal (by decide)) (.literal (by decide)))
    (h.fileImport (.literal (by decide)) (.literal (by decide)))
    (h.fileImport (.literal (by decide)) (.literal (by decide)))

/-- The imports of the bloc that do not depend on the endpoints. -/
theorem blocFixedImports : ∀ path ∈ blocFixedImports feature, Consists accepts path :=
  forall_blocFixedImports h.foreignPackages h.errorImport (h.sign_text (.literal (by decide)))
    (h.fileImport (.literal (by decide)) (.literal (by decide)))

end Spells

end Feature

end Scaffold
