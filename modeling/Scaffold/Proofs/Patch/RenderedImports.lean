import Scaffold.Proofs.Patch.ClassBatches

/-!
# Imports of rendered files

A rendered file opens with its import block, and no import stands behind the block. So imports that
are put in complete the block (`insertImports_importBlock`), and the block becomes the one rendered
for all endpoints together (`insertImports_rendered`).
-/

namespace Scaffold

open Anchor

variable {feature : Feature} {A B : List Endpoint} {a b path rest text mark : Text}
  {paths fixed others parts : List Text}

/-! ## Texts without imports -/

/-- No import stands in the text, and no path of a model. -/
structure ImportFree (feature : Feature) (text : Text) : Prop where
  token : Text.Avoids importToken text
  path : ∀ path, IsModelImport feature path → Text.Avoids path text

namespace ImportFree

theorem of_quiet (hquote : '\'' ∉ text)
    (hpath : ∀ path, IsModelImport feature path → Text.Avoids path text) :
    ImportFree feature text :=
  ⟨Text.avoids_of_not_mem (c := '\'') (by decide) hquote, hpath⟩

/-- Code without slashes and single quotes. -/
theorem of_not_mem (hquote : '\'' ∉ text) (hslash : '/' ∉ text) : ImportFree feature text :=
  .of_quiet hquote fun _ hpath => hpath.avoids_of_slash hslash

theorem append (hfeature : feature.Plain) (hjoint : LineJoint a b) (ha : ImportFree feature a)
    (hb : ImportFree feature b) : ImportFree feature (a ++ b) where
  token := avoids_of_lineJoint hjoint break_not_mem_importToken ha.token hb.token
  path := fun path hpath => avoids_of_lineJoint hjoint ((hpath.consists hfeature).not_mem (by decide))
    (ha.path path hpath) (hb.path path hpath)

theorem join (hfeature : feature.Plain) {separator : Text} (hstart : separator.head? = some '\n')
    (hend : separator.getLast? = some '\n') (hseparator : ImportFree feature separator)
    (h : ∀ part ∈ parts, ImportFree feature part) :
    ImportFree feature (Text.join separator parts) where
  token := avoids_join break_not_mem_importToken (by decide) hstart hend hseparator.token
    fun part hpart => (h part hpart).token
  path := fun path hpath => avoids_join ((hpath.consists hfeature).not_mem (by decide)) hpath.ne_nil
    hstart hend (hseparator.path path hpath) fun part hpart => (h part hpart).path path hpath

theorem lines (hfeature : feature.Plain) (h : ∀ line ∈ parts, ImportFree feature line) :
    ImportFree feature (Text.lines parts) := by
  have hbreak : ImportFree feature ['\n'] := .of_not_mem (by decide) (by decide)
  by_cases hnil : parts = []
  · subst hnil
    exact .of_not_mem (by decide) (by decide)
  · rw [Text.lines_eq_join hnil]
    exact .append hfeature (.inr (by simp [BreaksLine])) (join hfeature rfl rfl hbreak h) hbreak

/-- The line that names a part of the library. -/
theorem partLine {word ending : Text} (hword : AsciiWordy word) (hspace : ' ' ∉ ending)
    (hslash : '/' ∉ ending) : ImportFree feature ("part '" ++ (word ++ ending)) := by
  have hnot : ∀ {c : Char}, isAsciiWordChar c = false → c ∉ word := fun hc =>
    hword.consists.not_mem hc
  refine ⟨?_, fun path hpath => hpath.avoids_of_slash ?_⟩
  · have htail : ' ' ∉ word ++ ending := by
      rw [List.mem_append, not_or]
      exact ⟨hnot (by decide), hspace⟩
    exact Text.Avoids.append_of_tails (by decide)
      (Text.avoids_of_not_mem (c := ' ') (by decide) htail) (by decide)
  · have hword' : '/' ∉ word := hnot (by decide)
    simp only [List.mem_append, hword', hslash]
    decide

/-- Code without strings and comments. -/
theorem code (h : Consists isCodeChar text) : ImportFree feature text :=
  .of_not_mem (h.not_mem (by decide)) (h.not_mem (by decide))

/-- A comment about something with a name. -/
theorem comment {name first last : Text} (hfeature : feature.Plain) (hname : AsciiWordy name)
    (hfirst : '\'' ∉ first ∧ ':' ∉ first) (hlast : '\'' ∉ last ∧ ':' ∉ last) :
    ImportFree feature (first ++ name ++ last) := by
  have hnot : ∀ {c : Char}, isAsciiWordChar c = false → c ∉ name := fun hc =>
    hname.consists.not_mem hc
  refine .of_quiet ?_ fun path hpath => ?_
  · simp only [List.mem_append, not_or]
    exact ⟨⟨hfirst.1, hnot (by decide)⟩, hlast.1⟩
  · obtain ⟨rest, rfl, -⟩ := hpath.exists_package hfeature
    refine Text.avoids_of_not_mem (c := ':') (by simp) ?_
    simp only [List.mem_append, not_or]
    exact ⟨⟨hfirst.2, hnot (by decide)⟩, hlast.2⟩

end ImportFree

/-! ## Rendered files -/

theorem ClassFile.importFree_member (file : ClassFile) {endpoint : Endpoint}
    (hfeature : feature.Plain) (h : endpoint.Quiet) :
    ImportFree feature (file.member feature endpoint) :=
  .of_quiet (file.member_quiet hfeature h).1 (file.member_quiet hfeature h).2

theorem importFree_implementation {interface parameter field : Text}
    (hinterface : AsciiWordy interface) (hparameter : AsciiWordy parameter)
    (hfield : AsciiWordy field) :
    ImportFree feature (ClassFile.implementation interface parameter field) :=
  .code (ClassFile.consists_implementation takesTokens_isCodeChar (by decide) hinterface.code
    hparameter.code hfield.code)

theorem ClassFile.importFree_opening (file : ClassFile) (hfeature : feature.Plain) :
    ImportFree feature (file.opening feature) := by
  have hname := hfeature.name
  have hservice := hfeature.serviceClass.code
  have hsource := hfeature.sourceClass.code
  have hrepository := hfeature.repositoryClass.code
  have huseCases := hfeature.useCasesClass.code
  have hcode : ∀ {line : Text}, Consists isCodeChar line → ImportFree feature line := .code
  unfold opening
  cases file with
  | service =>
      refine .lines hfeature ?_
      simp only [List.forall_mem_cons]
      refine ⟨?_, hcode (by decide), .comment hfeature hname (by decide) (by decide),
        hcode (.literal (by decide)), hcode (.literal (by decide)),
        hcode ((Consists.append (.literal (by decide)) hservice).append (.literal (by decide))),
        hcode (.literal (by decide)),
        hcode ((((Consists.append (.literal (by decide)) hservice).append
          (.literal (by decide))).append hservice).append (.literal (by decide))),
        hcode (by decide), List.forall_mem_nil _⟩
      rw [List.append_assoc]
      exact .partLine hname (by decide) (by decide)
  | source =>
      refine .lines hfeature ?_
      simp only [List.forall_mem_cons]
      exact ⟨.comment hfeature hname (by decide) (by decide),
        hcode ((Consists.append (.literal (by decide)) hsource).append (.literal (by decide))),
        List.forall_mem_nil _⟩
  | sourceImpl =>
      exact importFree_implementation hfeature.sourceClass hfeature.serviceClass
        hfeature.serviceField
  | repositoryImpl =>
      exact importFree_implementation hfeature.repositoryClass hfeature.sourceClass
        (by decide)
  | repository =>
      refine .lines hfeature ?_
      simp only [List.forall_mem_cons]
      exact ⟨.comment hfeature hname (by decide) (by decide),
        hcode ((Consists.append (.literal (by decide)) hrepository).append (.literal (by decide))),
        List.forall_mem_nil _⟩
  | useCases =>
      refine .lines hfeature ?_
      simp only [List.forall_mem_cons]
      exact ⟨hcode (.literal (by decide)),
        hcode ((Consists.append (.literal (by decide)) huseCases).append (.literal (by decide))),
        hcode ((Consists.append (.literal (by decide)) huseCases).append (.literal (by decide))),
        hcode (by decide),
        hcode ((Consists.append (.literal (by decide)) hrepository).append (.literal (by decide))),
        hcode (by decide), List.forall_mem_nil _⟩

theorem importFree_blocOpening (hfeature : feature.Plain) :
    ImportFree feature (blocOpening feature) := by
  have hname := hfeature.name
  have hbloc := hfeature.blocClass.code
  have hevent := hfeature.eventClass.code
  have hstate := hfeature.stateClass.code
  have hcode : ∀ {line : Text}, Consists isCodeChar line → ImportFree feature line := .code
  unfold blocOpening
  refine .lines hfeature ?_
  simp only [List.forall_mem_cons, List.append_assoc]
  refine ⟨.partLine hname (by decide) (by decide), .partLine hname (by decide) (by decide),
    .partLine hname (by decide) (by decide), hcode (by decide), hcode (.literal (by decide)),
    hcode ?_, hcode ?_, hcode ?_, hcode (.literal (by decide)), List.forall_mem_nil _⟩
  · simp only [Consists.append_iff]
    exact ⟨.literal (by decide), hbloc, .literal (by decide), hevent, .literal (by decide), hstate,
      .literal (by decide)⟩
  · simp only [Consists.append_iff]
    exact ⟨.literal (by decide), hbloc, .literal (by decide), hstate, .literal (by decide)⟩
  · simp only [Consists.append_iff]
    exact ⟨.literal (by decide), hevent, .literal (by decide)⟩

/-! ## Import blocks -/

theorem importBlock_eq (hne : paths ≠ []) : importBlock paths = importLines paths ++ ['\n'] := by
  have hclauses : paths.map importClause ≠ [] := by simpa using hne
  have hempty : paths.isEmpty = false := by simpa using hne
  have hbreaks : ("\n\n" : Text) = ['\n'] ++ ['\n'] := rfl
  unfold importBlock
  rw [hempty, importLines, Text.lines_eq_join hclauses, renderImports, hbreaks]
  simp

theorem importLines_singleton (path : Text) :
    importLines [path] = importToken ++ ((path ++ "';") ++ ['\n']) := by
  rw [importLines_cons, importClause]
  simp [importLines]

/-- Behind an import block without imports, new imports complete the block. -/
theorem insertImports_importBlock {c : Char} (hpaths : ∀ path ∈ paths, Consists isPathChar path)
    (hrest : Text.Avoids importToken (c :: rest)) (hc : c ≠ '\n') :
    insertImports (importBlock paths ++ c :: rest) others =
      importBlock (paths ++ missingImports (importBlock paths ++ c :: rest) others) ++ c :: rest := by
  obtain ⟨missing, hmissing⟩ : ∃ missing, missing =
    missingImports (importBlock paths ++ c :: rest) others := ⟨_, rfl⟩
  by_cases hnone : missing = []
  · have hempty : (missingImports (importBlock paths ++ c :: rest) others).isEmpty = true := by
      rw [← hmissing, hnone]
      rfl
    unfold insertImports
    rw [if_pos hempty, ← hmissing, hnone, List.append_nil]
  · have hmissing' : missingImports (importBlock paths ++ c :: rest) others ≠ [] := hmissing ▸ hnone
    rw [← hmissing]
    rcases List.eq_nil_or_concat paths with rfl | ⟨front, last, rfl⟩
    · have hfoot : Text.startsWith (c :: rest) "\n" = false := by
        show ('\n' == c && List.isPrefixOf [] rest) = false
        rw [beq_false_of_ne (Ne.symm hc), Bool.false_and]
      have hgap : ImportGap [] [] ['\n'] (c :: rest) := by
        have htop := ImportGap.top hrest
        rwa [hfoot] at htop
      have hinsert : insertImports (c :: rest) others =
          importLines (missingImports (c :: rest) others) ++ ['\n'] ++ c :: rest :=
        hgap.insertImports hmissing'
      have hopen : importBlock [] ++ c :: rest = c :: rest := rfl
      rw [hopen] at hmissing ⊢
      rw [hinsert, ← hmissing, List.nil_append, importBlock_eq hnone]
    · have hlast := hpaths last (by simp)
      have hline : '\n' ∉ last ++ "';" := by
        rw [List.mem_append, not_or]
        exact ⟨hlast.not_mem (by decide), by decide⟩
      have hblock : importBlock (front.concat last) ++ c :: rest =
          (importLines front ++ (importToken ++ ((last ++ "';") ++ ['\n']))) ++
            '\n' :: c :: rest := by
        rw [importBlock_eq (by simp), List.concat_eq_append, importLines_append,
          importLines_singleton]
        simp only [List.append_assoc, List.cons_append, List.nil_append]
      have hnext : Text.Avoids importToken
          (importToken ++ ((last ++ "';") ++ '\n' :: '\n' :: c :: rest)).tail := by
        have hlines : ("mport '" ++ (last ++ "';\n") : Text) ++ '\n' :: c :: rest =
            "mport '" ++ ((last ++ "';") ++ '\n' :: '\n' :: c :: rest) := by
          have hbreak : ("';\n" : Text) = "';" ++ ['\n'] := Text.literal_append rfl
          rw [hbreak]
          simp only [List.append_assoc, List.cons_append, List.nil_append]
        rw [tail_importToken, ← hlines]
        refine avoids_of_lineJoint (.inr (by simp [BreaksLine])) break_not_mem_importToken
          (avoids_import_rest hlast) ?_
        exact avoids_of_lineJoint (a := ['\n']) (.inl rfl) break_not_mem_importToken (by decide) hrest
      have hinsert := (ImportGap.line (w := importLines front) hline hnext).insertImports
        (hblock ▸ hmissing')
      have hall : importBlock (front.concat last ++ missing) ++ c :: rest =
          importLines front ++ (importToken ++ ((last ++ "';") ++ ['\n'])) ++
            importLines missing ++ '\n' :: c :: rest := by
        rw [importBlock_eq (by simp), importLines_append, List.concat_eq_append, importLines_append, importLines_singleton]
        simp only [List.append_assoc, List.cons_append, List.nil_append]
      rw [hall, hblock, hinsert, ← hblock, ← hmissing]
      simp only [List.nil_append, List.append_nil]

/-! ## Completed imports -/

theorem eraseDups_append_eraseDups (first second : List Text) :
    (first ++ second.eraseDups).eraseDups = (first ++ second).eraseDups := by
  rw [List.eraseDups_append, List.eraseDups_append, List.removeAll, List.removeAll,
    filter_eraseDups, eraseDups_of_nodup (nodup_eraseDups _)]

/-- The imports of a file for all endpoints are those for the first ones, and then those of the models
that they lack. -/
theorem imports_append (fixed : List Text) (feature : Feature) (A B : List Endpoint) :
    (fixed ++ feature.modelImports (A ++ B)).eraseDups =
      (fixed ++ feature.modelImports A).eraseDups ++
        (feature.modelImports B).filter
          (fun path => !(fixed ++ feature.modelImports A).eraseDups.contains path) := by
  unfold Feature.modelImports
  rw [List.flatMap_append, eraseDups_append_eraseDups, eraseDups_append_eraseDups,
    ← List.append_assoc, List.eraseDups_append, filter_eraseDups, List.removeAll]
  congr 2
  refine List.filter_congr fun path _ => ?_
  simp [List.contains_eq_mem]

/-- An import that is no model's: that of another file of a package, or one without a slash. -/
def IsFixedImport (path : Text) : Prop := IsPackagePath path ∨ '/' ∉ path

theorem IsFixedImport.infix_eq {other : Text} (h : IsFixedImport other)
    (hpath : IsModelImport feature path) (hfeature : feature.Plain) (hin : path <:+: other) :
    path = other := by
  rcases h with hother | hslash
  · exact (hpath.isPackagePath hfeature).infix_eq hother hin
  · exact absurd (hin.subset hpath.slash_mem) hslash

/-- Of the imports of models, those of the import block are the ones that stand in the file. -/
theorem infix_importBlock_iff (hpath : IsModelImport feature path) (hfeature : feature.Plain)
    (hpaths : ∀ other ∈ paths, path <:+: other → path = other) (hrest : ImportFree feature rest) :
    path <:+: importBlock paths ++ rest ↔ path ∈ paths := by
  have hbreak : '\n' ∉ path := (hpath.consists hfeature).not_mem (by decide)
  by_cases hnil : paths = []
  · subst hnil
    exact ⟨fun hin => absurd hin (hrest.path path hpath), fun hmem => absurd hmem List.not_mem_nil⟩
  · rw [importBlock_eq hnil, List.append_assoc, ← infix_importLines hpath hfeature hpaths]
    constructor
    · intro hin
      have hjoint : LineJoint (importLines paths) (['\n'] ++ rest) := .inr (by simp [BreaksLine])
      refine (infix_of_lineJoint hjoint hbreak hin).resolve_right fun hin => ?_
      have hlast : LineJoint ['\n'] rest := .inl rfl
      rcases infix_of_lineJoint hlast hbreak hin with hin | hin
      · exact absurd (hin.subset hpath.slash_mem) (by decide)
      · exact hrest.path path hpath hin
    · exact fun hin => hin.trans ⟨[], ['\n'] ++ rest, by simp⟩

/-- Putting in the imports for more endpoints gives the imports rendered for all of them. -/
theorem insertImports_rendered {c : Char} (hfeature : feature.Plain)
    (hfixed : ∀ path ∈ fixed, Consists isPathChar path ∧ IsFixedImport path)
    (hA : ∀ endpoint ∈ A, endpoint.Plain) (hB : ∀ endpoint ∈ B, endpoint.Plain)
    (hrest : ImportFree feature (c :: rest)) (hc : c ≠ '\n') :
    insertImports (importBlock (fixed ++ feature.modelImports A).eraseDups ++ c :: rest)
        (feature.modelImports B) =
      importBlock (fixed ++ feature.modelImports (A ++ B)).eraseDups ++ c :: rest := by
  have hmodels := mem_modelImports feature hA
  have hpaths : ∀ path ∈ (fixed ++ feature.modelImports A).eraseDups, Consists isPathChar path := by
    intro path hpath
    rcases List.mem_append.1 (List.mem_eraseDups.1 hpath) with hpath | hpath
    · exact (hfixed path hpath).1
    · exact (hmodels path hpath).consists hfeature
  have hmissing : missingImports (importBlock (fixed ++ feature.modelImports A).eraseDups ++ c :: rest)
      (feature.modelImports B) = (feature.modelImports B).filter
        fun path => !(fixed ++ feature.modelImports A).eraseDups.contains path := by
    unfold missingImports
    have hnodup : (feature.modelImports B).Nodup := nodup_eraseDups _
    rw [eraseDups_of_nodup hnodup]
    refine List.filter_congr fun path hpath => ?_
    have hmodel := mem_modelImports feature hB path hpath
    have hiff : path <:+: importBlock (fixed ++ feature.modelImports A).eraseDups ++ c :: rest ↔
        path ∈ (fixed ++ feature.modelImports A).eraseDups :=
      infix_importBlock_iff hmodel hfeature (fun other hother hin => ?_) hrest
    · rw [← Text.occursIn_iff, ← List.contains_iff_mem] at hiff
      rw [Bool.eq_iff_iff.2 hiff]
    · rcases List.mem_append.1 (List.mem_eraseDups.1 hother) with hother | hother
      · exact (hfixed other hother).2.infix_eq hmodel hfeature hin
      · exact hmodel.infix_eq (hmodels other hother) hfeature hin
  rw [insertImports_importBlock hpaths hrest.token hc, hmissing, imports_append]

/-! ## Fixed imports -/

theorem isPackagePath_foreignPackages : ∀ path ∈ foreignPackages, IsPackagePath path := by
  unfold foreignPackages freezedImport injectableImport eitherImport
  simp only [List.forall_mem_cons]
  refine ⟨⟨"dio/dio", ?_, .literal (by decide)⟩, ⟨"retrofit/retrofit", ?_, .literal (by decide)⟩,
    ⟨"flutter/material", ?_, .literal (by decide)⟩,
    ⟨"flutter_bloc/flutter_bloc", ?_, .literal (by decide)⟩,
    ⟨"freezed_annotation/freezed_annotation", ?_, .literal (by decide)⟩,
    ⟨"injectable/injectable", ?_, .literal (by decide)⟩,
    ⟨"dartz/dartz", ?_, .literal (by decide)⟩, List.forall_mem_nil _⟩
  all_goals
    repeat rw [String.toList_ofList]
    rfl

namespace Feature.Plain

theorem package_errorImport (h : feature.Plain) : IsPackagePath feature.errorImport := by
  refine ⟨feature.project ++ "/core/error/error", ?_,
    h.project.packageChars.append (.literal (by decide))⟩
  have hend : ("/core/error/error.dart" : Text) = "/core/error/error" ++ ".dart" := by
    repeat rw [String.toList_ofList]
    rfl
  unfold Feature.errorImport
  rw [hend]
  simp only [List.append_assoc]

theorem package_fileImport (h : feature.Plain) {folder : Text} (ending : Text)
    (hfolder : Consists isPackageChar folder) (hending : Consists isPackageChar ending) :
    IsPackagePath (feature.fileImport folder (ending ++ ".dart")) := by
  have hproject := h.project.packageChars
  have hname := h.name.packageChars
  refine ⟨feature.project ++ ("/features/" ++ (feature.name ++ ("/" ++ (folder ++ ("/" ++
    (feature.name ++ ending)))))), ?_, ?_⟩
  · unfold Feature.fileImport Feature.package
    simp only [List.append_assoc]
  · simp only [Consists.append_iff]
    exact ⟨hproject, .literal (by decide), hname, .literal (by decide), hfolder,
      .literal (by decide), hname, hending⟩

theorem packageImports (h : feature.Plain) (file : ClassFile) :
    ∀ path ∈ file.fixedImports feature, IsPackagePath path :=
  file.forall_fixedImports isPackagePath_foreignPackages h.package_errorImport
    (h.package_fileImport "_service" (.literal (by decide)) (.literal (by decide)))
    (h.package_fileImport "_source" (.literal (by decide)) (.literal (by decide)))
    (h.package_fileImport "_repository" (.literal (by decide)) (.literal (by decide)))

theorem fixedImports (h : feature.Plain) (file : ClassFile) :
    ∀ path ∈ file.fixedImports feature, Consists isPathChar path ∧ IsFixedImport path :=
  fun path hpath => ⟨h.spells.fixedImports file path hpath, .inl (h.packageImports file path hpath)⟩

/-- All imports of the bloc file but one are files of packages. -/
theorem blocPackageImports (h : feature.Plain) :
    ∀ path ∈ Scaffold.blocFixedImports feature, path = ("dart:async" : Text) ∨ IsPackagePath path :=
  forall_blocFixedImports (fun path hpath => .inr (isPackagePath_foreignPackages path hpath))
    (.inr h.package_errorImport) (.inl rfl)
    (.inr (h.package_fileImport "_usecase" (.literal (by decide)) (.literal (by decide))))

theorem blocFixedImports (h : feature.Plain) :
    ∀ path ∈ blocFixedImports feature, Consists isPathChar path ∧ IsFixedImport path := by
  refine fun path hpath => ⟨h.spells.blocFixedImports path hpath, ?_⟩
  rcases h.blocPackageImports path hpath with rfl | hpackage
  · exact .inr (by decide)
  · exact .inl hpackage

end Feature.Plain

end Scaffold
