import Scaffold.Proofs.Naming.Words
import Scaffold.Proofs.Project.Writing
import Scaffold.Proofs.Text.Lines

/-!
# Places of the files of a feature

The files of a feature lie at different places (`featureFiles_places`), and none of them where the
errors shared by all features lie. `SourceFile` numbers the files that can be extended; each one is
a `Part` that depends on the endpoints.
-/

namespace Scaffold

/-! ## Relative paths -/

namespace Path

variable {base : Path} {a b name folder last : Text}

/-- A slash parts the names of a path. -/
theorem names_append_slash (a b : Text) : names (a ++ '/' :: b) = names a ++ names b := by
  simp [names, Text.splitOn_append_mark]

/-- A text without slashes that is a name. -/
structure IsName (name : Text) : Prop where
  ne_nil : name ≠ []
  noSlash : '/' ∉ name
  ne_dot : name ≠ ['.']
  ne_up : name ≠ upName

/-- A text that is a name is the only one of its path. -/
theorem IsName.names (h : IsName name) : names name = [name] := by
  simp [Path.names, Text.splitOn_of_not_mem h.noSlash, h.ne_nil, h.ne_dot]

/-- A relative path is put behind its base. -/
theorem join_of_relative (h : Text.startsWith a "/" = false) : base.join a = base ++ names a := by
  simp only [join, h, Bool.false_eq_true, if_false]

/-- The names of a relative path: none goes up, and none is that of the file of errors. -/
structure Relative (text : Text) (row : List Text) : Prop where
  relative : text.startsWith "/" = false
  names : Path.names text = row
  plain : ∀ name ∈ row, name ≠ [] ∧ name ≠ upName
  other : ∀ name ∈ row, name ≠ ("error.dart" : Text)

instance {text : Text} {row : List Text} : Decidable (Relative text row) :=
  decidable_of_iff (text.startsWith "/" = false ∧ Path.names text = row ∧
    (∀ name ∈ row, name ≠ [] ∧ name ≠ upName) ∧ ∀ name ∈ row, name ≠ ("error.dart" : Text))
    ⟨fun ⟨hstart, hrow, hplain, hother⟩ => ⟨hstart, hrow, hplain, hother⟩,
      fun h => ⟨h.relative, h.names, h.plain, h.other⟩⟩

/-- A name put behind a relative path makes a relative path. -/
theorem Relative.concat {row : List Text} (h : Relative folder row) (hne : folder ≠ [])
    (hlast : IsName last) (hother : last ≠ ("error.dart" : Text)) :
    Relative (folder ++ '/' :: last) (row ++ [last]) where
  relative := by
    obtain ⟨c, rest, rfl⟩ := List.exists_cons_of_ne_nil hne
    exact h.relative
  names := by rw [names_append_slash, h.names, hlast.names]
  plain name hname := by
    rcases List.mem_append.1 hname with hname | hname
    · exact h.plain name hname
    · rw [List.mem_singleton.1 hname]
      exact ⟨hlast.ne_nil, hlast.ne_up⟩
  other name hname := by
    rcases List.mem_append.1 hname with hname | hname
    · exact h.other name hname
    · rwa [List.mem_singleton.1 hname]

/-- Plain names lead down one by one. -/
theorem foldl_enter_of_plain {row : List Text} (h : ∀ name ∈ row, name ≠ [] ∧ name ≠ upName)
    (here : Path) : row.foldl enter here = here ++ row := by
  induction row generalizing here with
  | nil => simp
  | cons name row ih =>
      obtain ⟨hne, hup⟩ := h name (by simp)
      have henter : here.enter name = here ++ [name] := by simp [enter, hup, hne]
      rw [List.foldl_cons, henter, ih fun other hother => h other (by simp [hother])]
      simp

/-- On the way along plain names are the folders that hold the place. -/
theorem passedFrom_of_plain {row : List Text} (h : ∀ name ∈ row, name ≠ [] ∧ name ≠ upName)
    {here place : Path} (hplace : place ∈ passedFrom here row) :
    ∃ first rest, row = first ++ rest ∧ rest ≠ [] ∧ place = here ++ first := by
  induction row generalizing here with
  | nil => simp [passedFrom] at hplace
  | cons name row ih =>
      obtain ⟨hne, hup⟩ := h name (by simp)
      have henter : here.enter name = here ++ [name] := by simp [enter, hup, hne]
      rcases List.mem_cons.1 hplace with rfl | hplace
      · exact ⟨[], name :: row, rfl, by simp, by simp⟩
      · obtain ⟨first, rest, rfl, hrest, rfl⟩ :=
          ih (fun other hother => h other (by simp [hother])) hplace
        exact ⟨name :: first, rest, rfl, hrest, by simp [henter]⟩

/-- The places on the way along names below a folder are those on the way to the folder and those
between. -/
theorem mem_places_append {row : List Text} (hplain : ∀ name ∈ row, name ≠ [] ∧ name ≠ upName)
    {place : Path} (hplace : place ∈ Path.places (base ++ row)) :
    place ∈ base.passed ∨ ∃ first, first <+: row ∧ place = base.resolve ++ first := by
  rw [places, passed_append, resolve_append, foldl_enter_of_plain hplain] at hplace
  rcases List.mem_append.1 hplace with hplace | hplace
  · rcases List.mem_append.1 hplace with hplace | hplace
    · exact .inl hplace
    · obtain ⟨first, rest, hrow, -, hplace⟩ := passedFrom_of_plain hplain hplace
      exact .inr ⟨first, ⟨rest, hrow.symm⟩, hplace⟩
  · exact .inr ⟨row, List.prefix_refl row, List.mem_singleton.1 hplace⟩

/-- The places on the way to a relative path below a folder are those on the way to the folder and
those between. -/
theorem mem_places_of_relative {row : List Text} {text : Text} (h : Relative text row)
    {place : Path} (hplace : place ∈ (base.join text).places) :
    place ∈ base.passed ∨ ∃ first, first <+: row ∧ place = base.resolve ++ first := by
  rw [join_of_relative h.relative, h.names] at hplace
  exact mem_places_append h.plain hplace

/-- A relative path leads below its base. -/
theorem resolve_join {row : List Text} {text : Text} (h : Relative text row) :
    (base.join text).resolve = base.resolve ++ row := by
  rw [join_of_relative h.relative, h.names, resolve_append, foldl_enter_of_plain h.plain]

end Path

namespace Tree

variable {tree other : Tree} {base : Path} {rel : Text} {row : List Text}

/-- In a tree whose entries stand in folders, names below a folder lead to every entry there. -/
theorem find_append (hsound : tree.Sound) (hbase : tree.Holds (.folder base))
    (hplain : ∀ name ∈ row, name ≠ [] ∧ name ≠ upName) (hfits : Path.Fits (base ++ row))
    (hget : (tree.get? (base.resolve ++ row)).isSome = true) :
    tree.find (base ++ row) = .ok (base.resolve ++ row) := by
  obtain ⟨entry, hentry⟩ := Option.isSome_iff_exists.1 hget
  refine find_eq_ok_iff.2 ⟨hfits, fun place hplace => ?_, ?_⟩
  · rw [Path.passed_append] at hplace
    rcases List.mem_append.1 hplace with hplace | hplace
    · exact hbase.passed place hplace
    · obtain ⟨first, rest, rfl, hrest, rfl⟩ := Path.passedFrom_of_plain hplain hplace
      rw [← List.append_assoc] at hentry
      exact hsound.folder_of_append hrest hentry
  · rw [Path.resolve_append, Path.foldl_enter_of_plain hplain]

/-- Below a folder of a sound tree something is there exactly if its place is taken. -/
theorem has_append (hsound : tree.Sound) (hbase : tree.Holds (.folder base))
    (hplain : ∀ name ∈ row, name ≠ [] ∧ name ≠ upName) (hfits : Path.Fits (base ++ row)) :
    tree.has (base ++ row) = .ok (tree.get? (base.resolve ++ row)).isSome := by
  obtain ⟨known, hknown⟩ : ∃ known, tree.has (base ++ row) = .ok known := has_of_fits hfits
  cases hget : (tree.get? (base.resolve ++ row)).isSome with
  | true => rw [has_of_find (find_append hsound hbase hplain hfits hget), hget]
  | false =>
      cases known with
      | false => exact hknown
      | true =>
          have hsome := (has_eq_true_iff.1 hknown).2
          rw [Path.resolve_append, Path.foldl_enter_of_plain hplain, hget] at hsome
          cases hsome

/-- A relative path leads to every entry below its folder. -/
theorem find_join (hsound : tree.Sound) (hbase : tree.Holds (.folder base))
    (hrel : Path.Relative rel row) (hfits : (base.join rel).Fits)
    (hget : (tree.get? (base.resolve ++ row)).isSome = true) :
    tree.find (base.join rel) = .ok (base.resolve ++ row) := by
  rw [Path.join_of_relative hrel.relative, hrel.names] at hfits ⊢
  exact find_append hsound hbase hrel.plain hfits hget

/-- At a relative path below a folder something is there exactly if its place is taken. -/
theorem has_join (hsound : tree.Sound) (hbase : tree.Holds (.folder base))
    (hrel : Path.Relative rel row) (hfits : (base.join rel).Fits) :
    tree.has (base.join rel) = .ok (tree.get? (base.resolve ++ row)).isSome := by
  rw [Path.join_of_relative hrel.relative, hrel.names] at hfits ⊢
  exact has_append hsound hbase hrel.plain hfits

end Tree

/-! ## Names of features and models -/

/-- The shape of the names of features: no slash, and no dot. -/
structure FeatureName (name : Text) : Prop where
  ne_nil : name ≠ []
  noSlash : '/' ∉ name
  noDot : '.' ∉ name

/-- An accepted name has no slash and no dot. -/
theorem FeatureName.of_isFeatureName {name : Text} (h : isFeatureName name = true) :
    FeatureName name := by
  have hmem : ∀ d, isNamePart d = false → d ≠ '\n' → d ∉ name := by
    intro d hd hbreak hin
    cases name with
    | nil => simp at hin
    | cons c rest =>
        simp only [isFeatureName, Bool.and_eq_true, Bool.or_eq_true, List.isEmpty_iff,
          beq_iff_eq] at h
        obtain ⟨hc, htail⟩ := h
        rcases List.mem_cons.1 hin with rfl | hin
        · simp [isNamePart, hc] at hd
        · rw [← List.takeWhile_append_dropWhile (p := isNamePart) (l := rest)] at hin
          rcases List.mem_append.1 hin with hin | hin
          · rw [List.mem_takeWhile_imp hin] at hd
            cases hd
          · rcases htail with htail | htail
            · simp [htail] at hin
            · rw [htail] at hin
              exact hbreak (List.mem_singleton.1 hin)
  refine ⟨?_, hmem _ (by decide) (by decide), hmem _ (by decide) (by decide)⟩
  rintro rfl
  cases h

variable {name : Text} {config : Config}

/-- The name of a feature is a name of one folder. -/
theorem FeatureName.isName (h : FeatureName name) : Path.IsName name where
  ne_nil := h.ne_nil
  noSlash := h.noSlash
  ne_dot := by
    rintro rfl
    exact h.noDot (by decide)
  ne_up := by
    rintro rfl
    exact h.noDot (by decide)

/-- The name of a feature is a relative path. -/
theorem FeatureName.relative (h : FeatureName name) : Path.Relative name [name] where
  relative := by
    obtain ⟨c, rest, rfl⟩ := List.exists_cons_of_ne_nil h.ne_nil
    have hc : c ≠ '/' := fun hc => h.noSlash (by simp [hc])
    simp [Text.startsWith, List.isPrefixOf, Ne.symm hc]
  names := h.isName.names
  plain other hother := by
    rw [List.mem_singleton.1 hother]
    exact ⟨h.ne_nil, h.isName.ne_up⟩
  other other hother := by
    rw [List.mem_singleton.1 hother]
    rintro rfl
    exact h.noDot (by decide)

/-- A feature lies in the folder for features, under its name. -/
theorem FeatureName.resolve_featurePath (h : FeatureName name) :
    (config.featurePath name).resolve = (config.root.join config.featuresPath).resolve ++ [name] :=
  Path.resolve_join h.relative

end Scaffold
