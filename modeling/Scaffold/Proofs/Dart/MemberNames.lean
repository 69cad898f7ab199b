import Scaffold.Proofs.Dart.Declarations
import Scaffold.Proofs.Dart.ImportPaths
import Scaffold.Proofs.Dart.Templates
import Scaffold.Proofs.Project.ModelFiles

/-!
# Names that members declare

The member that is written for an endpoint declares its name and nothing else
(`ClassFile.declared_member`), and import lines declare nothing (`declared_importBlock`). Paths and
parameters may hold anything but line breaks.
-/

namespace Scaffold

open MemberKind

variable {feature : Feature} {endpoint : Endpoint} {endpoints : List Endpoint} {kind : MemberKind}
  {text : Text}

/-! ## Texts on one line -/

/-- All characters but line feeds and returns. -/
def isLineChar (c : Char) : Bool := !(c == '\n' || c == '\r')

/-- A word breaks no line. -/
theorem Wordy.line (h : Wordy text) : Consists isLineChar text := by
  intro c hc
  have hne : ∀ d : Char, d.toNat < 0x80 → isWordChar d = false → c ≠ d := by
    rintro d hd hword rfl
    exact h.not_mem hd hword hc
  simp [isLineChar, hne '\n' (by decide) (by decide), hne '\r' (by decide) (by decide)]

/-- Templates break lines with line feeds only, which are no tokens. -/
theorem takesTokens_isLineChar : TakesTokens isLineChar := by
  intro c hc
  simp only [isTokenChar, Bool.not_eq_true', Bool.or_eq_false_iff] at hc
  simp [isLineChar, hc]

/-- The method of the endpoint is named by a word; its path and its parameters break no line. -/
structure Endpoint.Lined (endpoint : Endpoint) : Prop where
  name : IsWord endpoint.methodName
  path : Consists isLineChar endpoint.path
  parameter : ∀ parameter ∈ endpoint.parameters,
    Consists isLineChar parameter.name ∧ Consists isLineChar parameter.type

/-- The project's name breaks no line, and the feature's name is an accepted one. -/
structure Feature.Lined (feature : Feature) : Prop where
  project : Consists isLineChar feature.project
  name : isFeatureName feature.name = true
  modelFolder : AsciiWordy feature.modelFolder

namespace Endpoint.Lined

/-- The method is named by word characters. -/
theorem wordy (h : endpoint.Lined) : Wordy endpoint.methodName := h.name.wordy

/-- What the method returns is named by word characters. -/
theorem returnType (h : endpoint.Lined) : Wordy endpoint.returnType := by
  unfold Endpoint.returnType
  split
  · exact wordy_responseModel h.wordy
  · decide

/-- Names and types of the arguments break no line, the body's among them. -/
theorem writes (h : endpoint.Lined) : endpoint.Writes isLineChar := by
  intro argument hargument
  unfold Endpoint.arguments at hargument
  rcases List.mem_append.1 hargument with hargument | hargument
  · rcases List.mem_append.1 hargument with hargument | hargument
    · obtain ⟨parameter, hparameter, rfl⟩ := List.mem_map.1 hargument
      exact h.parameter parameter (List.mem_of_mem_filter hparameter)
    · obtain ⟨parameter, hparameter, rfl⟩ := List.mem_map.1 hargument
      exact h.parameter parameter (List.mem_of_mem_filter hparameter)
  · split at hargument
    · rw [List.mem_singleton.1 hargument]
      exact ⟨(.literal (by decide) : Consists isLineChar "params"),
        (wordy_requestModel h.wordy).line⟩
    · cases hargument

/-- The typed parameters break no line. -/
theorem typedParameters (h : endpoint.Lined) : Consists isLineChar endpoint.typedParameters :=
  h.writes.typedParameters (.literal (by decide))

/-- The arguments of a call break no line. -/
theorem callArguments (h : endpoint.Lined) : Consists isLineChar endpoint.callArguments :=
  h.writes.callArguments (.literal (by decide))

/-- The parameters of the client break no line. -/
theorem clientParameters (h : endpoint.Lined) : Consists isLineChar endpoint.clientParameters :=
  h.writes.clientParameters (.literal (by decide))

/-- The named parameters break no line. -/
theorem namedParameters (h : endpoint.Lined) : Consists isLineChar endpoint.namedParameters :=
  h.writes.namedParameters (.literal (by decide))

/-- The name of the method breaks no line. -/
theorem word (h : endpoint.Lined) : Consists isLineChar endpoint.methodName := h.wordy.line

/-- What templates are filled with breaks no line. -/
theorem fills (h : endpoint.Lined) : endpoint.Fills isLineChar where
  tokens := takesTokens_isLineChar
  methodName := h.word
  returnType := h.returnType.line
  typedParameters := h.typedParameters
  callArguments := h.callArguments

/-- The class of the event is named without a line break. -/
theorem pascal (h : endpoint.Lined) : Consists isLineChar endpoint.eventName.pascal :=
  (h.wordy.append (by decide)).pascal.line

end Endpoint.Lined

namespace Feature.Lined

/-- An accepted name holds its own characters, and a line feed at most. -/
theorem mem_name (h : feature.Lined) {c : Char} (hc : c ∈ feature.name) :
    isNamePart c = true ∨ c = '\n' := by
  have hname := h.name
  cases hcases : feature.name with
  | nil => simp [hcases] at hc
  | cons first rest =>
      rw [hcases] at hname hc
      simp only [isFeatureName, Bool.and_eq_true, Bool.or_eq_true, List.isEmpty_iff,
        beq_iff_eq] at hname
      obtain ⟨hfirst, htail⟩ := hname
      rcases List.mem_cons.1 hc with rfl | hc
      · exact .inl (by simp [isNamePart, hfirst])
      · rw [← List.takeWhile_append_dropWhile (p := isNamePart) (l := rest)] at hc
        rcases List.mem_append.1 hc with hc | hc
        · exact .inl (List.mem_takeWhile_imp hc)
        · rcases htail with htail | htail
          · simp [htail] at hc
          · rw [htail] at hc
            exact .inr (List.mem_singleton.1 hc)

/-- Nothing else stands in an accepted name. -/
theorem not_mem_name (h : feature.Lined) {c : Char} (hc : isNamePart c = false) (hbreak : c ≠ '\n') :
    c ∉ feature.name := by
  intro hmem
  rcases h.mem_name hmem with hpart | rfl
  · simp [hc] at hpart
  · exact hbreak rfl

/-- The feature's classes are named by ASCII words: a line feed at the end goes with the other
separators. -/
theorem pascal (h : feature.Lined) : AsciiWordy feature.pascal := by
  intro d hd
  -- each character comes from one of the name that is no separator
  obtain ⟨c, hc, hseparator, hd⟩ := Text.mem_pascal hd
  have halnum : isAsciiAlphanumeric c = true := by
    rcases h.mem_name hc with hpart | rfl
    · simp only [isNamePart, isNameStart, Bool.or_eq_true, Bool.and_eq_true, decide_eq_true_eq,
        beq_iff_eq] at hpart
      rcases hpart with (⟨hlow, hhigh⟩ | ⟨hlow, hhigh⟩) | rfl
      · simp [isAsciiAlphanumeric, hlow, hhigh]
      · simp [isAsciiAlphanumeric, hlow, hhigh]
      · exact absurd hseparator (by decide)
    · exact absurd hseparator (by decide)
  rcases hd with rfl | hd
  · exact .inr halnum
  · exact .inr (mem_upperChar_of_ascii halnum hd)

/-- The feature's fields are named by ASCII words, like its classes. -/
theorem camel (h : feature.Lined) : AsciiWordy feature.camel := by
  intro d hd
  unfold Feature.camel Text.camel at hd
  split at hd
  · cases hd
  · next c rest hpascal =>
    have hmem : ∀ e ∈ c :: rest, e = '_' ∨ isAsciiAlphanumeric e = true := fun e he =>
      h.pascal e (by unfold Feature.pascal; rw [hpascal]; exact he)
    have hascii : c.toNat < 0x80 := by
      rcases hmem c List.mem_cons_self with rfl | hc
      · decide
      · exact toNat_lt_of_isAsciiAlphanumeric hc
    rcases List.mem_append.1 hd with hd | hd
    · rcases mem_lowerChar_of_ascii hascii hd with rfl | hd
      · exact hmem d List.mem_cons_self
      · exact .inr hd
    · exact hmem d (List.mem_cons_of_mem _ hd)

end Feature.Lined

/-! ## Members -/

/-- A word does not end the head of a declaration. -/
theorem Wordy.head {text : Text} (h : Wordy text) (kind : MemberKind) :
    ∀ c ∈ text, kind.stops c = false := by
  intro c hc
  have hne : ∀ d : Char, d.toNat < 0x80 → isWordChar d = false → c ≠ d := by
    rintro d hd hword rfl
    exact h.not_mem hd hword hc
  have hparen := hne '(' (by decide) (by decide)
  have hcomma := hne ',' (by decide) (by decide)
  have hcolon := hne ':' (by decide) (by decide)
  have hopen := hne '\x7b' (by decide) (by decide)
  have hclose := hne '\x7d' (by decide) (by decide)
  have hend := hne ';' (by decide) (by decide)
  cases kind <;> simp [MemberKind.stops, MemberKind.mark, endsHead, hparen.symm, hcomma.symm,
    hcolon.symm, hopen, hclose, hend]

/-- The head of a method: a type and a name. -/
theorem declared?_futureOf (h : endpoint.Lined) {result : Text}
    (hresult : ∀ c ∈ result, method.stops c = false) (rest : Text) :
    method.declared? (endpoint.futureOf result ++ ("(" ++ rest)) = some endpoint.methodName := by
  have hhead : ∀ c ∈ result ++ "> " ++ endpoint.methodName, method.stops c = false := by
    have hsigns : ∀ c ∈ ("> " : Text), method.stops c = false := by decide
    exact List.forall_mem_append.2 ⟨List.forall_mem_append.2 ⟨hresult, hsigns⟩, h.wordy.head method⟩
  have hlast : lastWord (result ++ "> " ++ endpoint.methodName) = endpoint.methodName := by
    have hblank : result ++ "> " ++ endpoint.methodName =
        (result ++ ['>']) ++ ' ' :: endpoint.methodName := by simp
    rw [hblank, lastWord_append (by decide) h.name.word]
  have htext : endpoint.futureOf result ++ ("(" ++ rest) =
      method.lead ++ ((result ++ "> " ++ endpoint.methodName) ++ (method.mark ++ rest)) := by
    unfold Endpoint.futureOf
    simp only [List.append_assoc]
    rfl
  rw [htext, declared?_eq hhead, hlast]

/-- The type of a result or an error has no sign that ends the head of a method. -/
theorem eitherType_head (h : endpoint.Lined) :
    ∀ c ∈ endpoint.eitherType, method.stops c = false := by
  have hopen : ∀ c ∈ ("Either<Error, " : Text), method.stops c = false := by decide
  have hclose : ∀ c ∈ (">" : Text), method.stops c = false := by decide
  exact List.forall_mem_append.2
    ⟨List.forall_mem_append.2 ⟨hopen, h.returnType.head method⟩, hclose⟩

/-- A line that opens a method declares it. -/
theorem declared_futureOf (h : endpoint.Lined) {result rest : Text}
    (hresult : ∀ c ∈ result, method.stops c = false) (hline : Consists isLineChar result)
    (hrest : Consists isLineChar rest) (behind : Text) :
    method.declared (endpoint.futureOf result ++ ("(" ++ rest) ++ '\n' :: behind) =
      endpoint.methodName :: method.declared behind := by
  refine declared_take ?_ (declared?_futureOf h hresult rest) behind
  have hall : Consists isLineChar (endpoint.futureOf result ++ ("(" ++ rest)) :=
    (((Consists.append (.literal (by decide)) hline).append (.literal (by decide))).append
      h.word).append (.append (.literal (by decide)) hrest)
  exact hall.not_mem (by decide)

/-- A member of a class file declares the endpoint's method. -/
theorem ClassFile.declared_member (file : ClassFile) (hfeature : feature.Lined)
    (h : endpoint.Lined) : method.declared (file.member feature endpoint) = [endpoint.methodName] := by
  -- each line is closed by a break, the last one too
  rw [← List.append_nil (method.declared (file.member feature endpoint)),
    ← declared_nil method, ← declared_break]
  have hreturn : ∀ {rest : Text}, Consists isLineChar rest → ∀ behind : Text,
      method.declared (endpoint.futureOf endpoint.returnType ++ ("(" ++ rest) ++ '\n' :: behind) =
        endpoint.methodName :: method.declared behind := fun hrest =>
    declared_futureOf h (h.returnType.head method) h.returnType.line hrest
  have heither : ∀ {rest : Text}, Consists isLineChar rest → ∀ behind : Text,
      method.declared (endpoint.futureOf endpoint.eitherType ++ ("(" ++ rest) ++ '\n' :: behind) =
        endpoint.methodName :: method.declared behind := fun hrest =>
    declared_futureOf h (eitherType_head h) h.fills.eitherType hrest
  have hcall := h.fills.call
  have hskip : ∀ {line : Text}, Consists isLineChar line → method.declared? line = none →
      ∀ rest : Text, method.declared (line ++ '\n' :: rest) = method.declared rest :=
    fun hline => declared_skip (hline.not_mem (by decide))
  cases file with
  | service =>
      have hsign : Consists isLineChar ("  " ++ endpoint.annotation) :=
        .append (.literal (by decide))
          (consists_annotationText takesTokens_isLineChar (by decide) h.path)
      have htext : member feature endpoint .service ++ '\n' :: [] =
          ("  " ++ endpoint.annotation) ++ '\n' :: (endpoint.futureOf endpoint.returnType ++
            ("(" ++ (endpoint.clientParameters ++ ");")) ++ '\n' :: []) := by
        unfold member
        repeat rw [String.toList_ofList]
        simp -implicitDefEqProofs only [List.append_assoc, List.cons_append, List.nil_append]
      rw [htext, hskip hsign rfl, hreturn (h.clientParameters.append (.literal (by decide))),
        declared_nil]
  | source =>
      have htext : member feature endpoint .source ++ '\n' :: [] =
          endpoint.futureOf endpoint.returnType ++ ("(" ++ (endpoint.typedParameters ++ ");")) ++
            '\n' :: [] := by
        unfold member
        simp only [List.append_assoc]
      rw [htext, hreturn (h.typedParameters.append (.literal (by decide))), declared_nil]
  | sourceImpl =>
      have hservice : Consists isLineChar feature.serviceField :=
        (hfeature.camel.append (by decide)).wordy.line
      have htext : member feature endpoint .sourceImpl ++ '\n' :: [] =
          "  @override" ++ '\n' :: (endpoint.futureOf endpoint.returnType ++
            ("(" ++ (endpoint.typedParameters ++ ") =>")) ++
              '\n' :: (("      " ++ (feature.serviceField ++ ("." ++ (endpoint.call ++ ";")))) ++
                '\n' :: [])) := by
        unfold member
        repeat rw [String.toList_ofList]
        simp -implicitDefEqProofs only [List.append_assoc, List.cons_append, List.nil_append]
      rw [htext, hskip (.literal (by decide)) (declared?_literal rfl),
        hreturn (h.typedParameters.append (.literal (by decide))),
        hskip (.append (.literal (by decide))
          (hservice.append (.append (.literal (by decide)) (hcall.append (.literal (by decide))))))
          (declared?_literal_append rfl), declared_nil]
  | repositoryImpl =>
      have htext : member feature endpoint .repositoryImpl ++ '\n' :: [] =
          "  @override" ++ '\n' :: (endpoint.futureOf endpoint.eitherType ++
            ("(" ++ (endpoint.typedParameters ++ ") async \x7b")) ++ '\n' :: ("    try \x7b" ++
            '\n' :: (("      final res = await remoteDataSource." ++ (endpoint.call ++ ";")) ++
            '\n' :: (Text.lines ["      return right(res);", "    \x7d catch (e) \x7b",
              "      return left(Error.customErrorType(e.toString()));", "    \x7d", "  \x7d"] ++
                [])))) := by
        have hoverride : ("  @override\n" : Text) = "  @override" ++ ['\n'] :=
          Text.literal_append rfl
        have hasync : (") async \x7b\n" : Text) = ") async \x7b" ++ ['\n'] :=
          Text.literal_append rfl
        have htry : ("    try \x7b\n" : Text) = "    try \x7b" ++ ['\n'] := Text.literal_append rfl
        have hend : (";\n" : Text) = ";" ++ ['\n'] := Text.literal_append rfl
        have hright : ("      return right(res);\n" : Text) =
          "      return right(res);" ++ ['\n'] := Text.literal_append rfl
        have hcatch : ("    \x7d catch (e) \x7b\n" : Text) = "    \x7d catch (e) \x7b" ++ ['\n'] :=
          Text.literal_append rfl
        have hleft : ("      return left(Error.customErrorType(e.toString()));\n" : Text) =
          "      return left(Error.customErrorType(e.toString()));" ++ ['\n'] :=
          Text.literal_append rfl
        have hclose : ("    \x7d\n" : Text) = "    \x7d" ++ ['\n'] := Text.literal_append rfl
        unfold member
        rw [hoverride, hasync, htry, hend, hright, hcatch, hleft, hclose]
        simp -implicitDefEqProofs only [List.append_assoc, List.cons_append, List.nil_append, Text.lines_cons,
          Text.lines_nil, List.append_nil]
      have hlines : ∀ line ∈ (["      return right(res);", "    \x7d catch (e) \x7b",
          "      return left(Error.customErrorType(e.toString()));", "    \x7d", "  \x7d"] : List Text),
          '\n' ∉ line ∧ method.declared? line = none := by
        repeat rw [String.toList_ofList]
        decide
      rw [htext, hskip (.literal (by decide)) (declared?_literal rfl),
        heither (h.typedParameters.append (.literal (by decide))),
        hskip (.literal (by decide)) (declared?_literal rfl),
        hskip (.append (.literal (by decide)) (hcall.append (.literal (by decide))))
          (declared?_literal_append rfl),
        declared_lines_append hlines, declared_nil]
  | repository =>
      have htext : member feature endpoint .repository ++ '\n' :: [] =
          endpoint.futureOf endpoint.eitherType ++ ("(" ++ (endpoint.typedParameters ++ ");")) ++
            '\n' :: [] := by
        unfold member
        simp only [List.append_assoc]
      rw [htext, heither (h.typedParameters.append (.literal (by decide))), declared_nil]
  | useCases =>
      have htext : member feature endpoint .useCases ++ '\n' :: [] =
          endpoint.futureOf endpoint.eitherType ++ ("(" ++ (endpoint.typedParameters ++ ") =>")) ++
            '\n' :: (("      repository." ++ (endpoint.call ++ ";")) ++ '\n' :: []) := by
        unfold member
        repeat rw [String.toList_ofList]
        simp -implicitDefEqProofs only [List.append_assoc, List.cons_append, List.nil_append]
      rw [htext, heither (h.typedParameters.append (.literal (by decide))),
        hskip (.append (.literal (by decide)) (hcall.append (.literal (by decide))))
          (declared?_literal_append rfl), declared_nil]

/-! ## Imports -/

/-- The path breaks a line at most in front of a part without blanks. -/
def IsImportPath (path : Text) : Prop := ∃ a b, path = a ++ b ∧ '\n' ∉ a ∧ ' ' ∉ b

/-- A path on one line is one of an import. -/
theorem IsImportPath.of_line {path : Text} (h : '\n' ∉ path) : IsImportPath path :=
  ⟨path, [], by simp, h, by simp⟩

/-- No line of an import clause is indented. -/
theorem IsImportPath.flush {path : Text} (h : IsImportPath path) : Flush (importClause path) := by
  obtain ⟨a, b, rfl, ha, hb⟩ := h
  have htext : importClause (a ++ b) = (importToken ++ a) ++ (b ++ "';") := by
    simp [importClause]
  have hstart : importToken = 'i' :: "mport '" := rfl
  have hblanks : ("  " : Text) = [' ', ' '] := rfl
  rw [htext]
  refine Flush.of_append ?_ ?_ ?_
  · rw [hstart, hblanks]
    simp
  · rw [List.mem_append, not_or]
    exact ⟨by decide, ha⟩
  · refine Text.avoids_of_not_mem (c := ' ') (by decide) ?_
    rw [List.mem_append, not_or]
    exact ⟨hb, by decide⟩

/-- Import lines declare nothing. -/
theorem declared_importLines {paths : List Text} (h : ∀ path ∈ paths, IsImportPath path) :
    kind.declared (Text.lines (paths.map importClause)) = [] := by
  rw [declared_lines, List.flatMap_eq_nil_iff]
  intro line hline
  obtain ⟨path, hpath, rfl⟩ := List.mem_map.1 hline
  exact (h path hpath).flush.declares kind

/-- Imports declare nothing, whatever follows them. -/
theorem declared_importBlock {paths : List Text} (h : ∀ path ∈ paths, IsImportPath path)
    (rest : Text) : kind.declared (importBlock paths ++ rest) = kind.declared rest := by
  unfold importBlock
  split
  · rfl
  · next hne =>
    have hlines : renderImports paths ++ "\n\n" ++ rest =
        Text.lines (paths.map importClause) ++ '\n' :: rest := by
      rw [Text.lines_eq_join (by simpa using hne)]
      simp [renderImports]
    rw [hlines, declared_break, declared_importLines h]
    rfl

namespace Feature.Lined

/-- What follows the package in a path may break a line, but holds no blank. -/
theorem importPath_package (h : feature.Lined) {rest : Text} (hrest : ' ' ∉ rest) :
    IsImportPath (feature.package ++ rest) := by
  refine ⟨"package:" ++ feature.project ++ "/features/", feature.name ++ rest, ?_, ?_, ?_⟩
  · unfold Feature.package
    simp only [List.append_assoc]
  · exact ((Consists.append (.literal (by decide)) h.project).append (.literal (by decide))).not_mem
      (by decide)
  · rw [List.mem_append, not_or]
    exact ⟨h.not_mem_name (by decide) (by decide), hrest⟩

/-- A file of the feature is imported by such a path. -/
theorem importPath_file (h : feature.Lined) {folder ending : Text} (hfolder : ' ' ∉ folder)
    (hending : ' ' ∉ ending) : IsImportPath (feature.fileImport folder ending) := by
  have htext : feature.fileImport folder ending =
      feature.package ++ ("/" ++ (folder ++ ("/" ++ (feature.name ++ ending)))) := by
    simp [Feature.fileImport]
  rw [htext]
  refine h.importPath_package ?_
  simp only [List.mem_append, not_or]
  exact ⟨by decide, hfolder, by decide, h.not_mem_name (by decide) (by decide), hending⟩

/-- The error union is imported by such a path. -/
theorem importPath_error (h : feature.Lined) : IsImportPath feature.errorImport :=
  .of_line (((Consists.append (.literal (by decide)) h.project).append
    (.literal (by decide))).not_mem (by decide))

/-- Models are imported by such paths. -/
theorem importPath_model (h : feature.Lined) (hlined : ∀ endpoint ∈ endpoints, endpoint.Lined) :
    ∀ path ∈ feature.modelImports endpoints, IsImportPath path := by
  intro path hpath
  obtain ⟨endpoint, hendpoint, hpath⟩ := List.mem_flatMap.1 (List.mem_eraseDups.1 hpath)
  obtain ⟨model, hmodel, rfl⟩ := List.mem_map.1 hpath
  have hwordy : Wordy model :=
    wordy_of_mem_requiredModels (hlined endpoint hendpoint).wordy hmodel
  have htext : feature.modelImport model =
      feature.package ++ ("/data/" ++ (feature.modelFolder ++ ("/" ++ modelFile model))) := by
    simp [Feature.modelImport]
  rw [htext]
  refine h.importPath_package ?_
  simp only [List.mem_append, not_or, modelFile]
  exact ⟨by decide, h.modelFolder.wordy.not_mem (by decide) (by decide), by decide,
    hwordy.snake.not_mem (by decide) (by decide), by decide⟩

/-- Other projects are imported by such paths. -/
theorem importPath_foreign : ∀ path ∈ foreignImports, IsImportPath path := fun path hpath =>
  .of_line ((pathChars_foreignImports path hpath).not_mem (by decide))

/-- Other packages are imported by such paths. -/
theorem importPath_foreignPackage : ∀ path ∈ foreignPackages, IsImportPath path := fun path hpath =>
  importPath_foreign path (List.mem_cons_of_mem _ hpath)

/-- What a class file always imports has such paths. -/
theorem importPath_fixed (h : feature.Lined) (file : ClassFile) :
    ∀ path ∈ file.fixedImports feature, IsImportPath path :=
  file.forall_fixedImports importPath_foreignPackage h.importPath_error
    (h.importPath_file (Text.not_mem_literal (by decide)) (Text.not_mem_literal (by decide)))
    (h.importPath_file (Text.not_mem_literal (by decide)) (Text.not_mem_literal (by decide)))
    (h.importPath_file (Text.not_mem_literal (by decide)) (Text.not_mem_literal (by decide)))

/-- What the bloc always imports has such paths. -/
theorem importPath_bloc (h : feature.Lined) :
    ∀ path ∈ blocFixedImports feature, IsImportPath path :=
  forall_blocFixedImports importPath_foreignPackage h.importPath_error
    (importPath_foreign _ List.mem_cons_self)
    (h.importPath_file (Text.not_mem_literal (by decide)) (Text.not_mem_literal (by decide)))

end Feature.Lined

end Scaffold
