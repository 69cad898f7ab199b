import Scaffold.Project.Config
import Scaffold.Proofs.Naming.Recasing

/-!
# Names that features may have

A project permits a feature name in snake case that none of its restricted names equals up to letter
case (`Config.Permits`). `checkName_outcome` says which names pass the check and why each other one
is refused. Every permitted name passes. Of the others only two kinds do: a name with a line end
behind it, and a name that is restricted in another letter case.
-/

namespace Scaffold

variable {config : Config} {name : Text} {c : Char}

/-! ## Snake case -/

/-- A small ASCII letter followed by small ASCII letters, digits and underscores. -/
def IsSnakeCase : Text → Prop
  | [] => False
  | c :: rest => isNameStart c = true ∧ ∀ d ∈ rest, isNamePart d = true

instance : Decidable (IsSnakeCase name) :=
  match name with
  | [] => inferInstanceAs (Decidable False)
  | c :: rest => inferInstanceAs (Decidable (isNameStart c = true ∧ ∀ d ∈ rest, isNamePart d = true))

/-- The name is in snake case, but for a line end that may stand behind it. -/
def IsSnakeLine (name : Text) : Prop := ∃ base, IsSnakeCase base ∧ (name = base ∨ name = base ++ "\n")

theorem IsSnakeCase.mem (h : IsSnakeCase name) (hc : c ∈ name) : isNamePart c = true := by
  cases name with
  | nil => cases hc
  | cons first rest =>
      rcases List.mem_cons.1 hc with rfl | hc
      · simp [isNamePart, h.1]
      · exact h.2 c hc

theorem IsSnakeCase.ne_nil (h : IsSnakeCase name) : name ≠ [] := by
  rintro rfl
  exact h

theorem isFeatureName_of_snakeCase (h : IsSnakeCase name) (tail : Text)
    (htail : tail = [] ∨ tail = "\n") : isFeatureName (name ++ tail) = true := by
  cases name with
  | nil => cases h
  | cons first rest =>
      have hdrop : (rest ++ tail).dropWhile isNamePart = tail := by
        rw [List.dropWhile_append_of_pos h.2]
        rcases htail with rfl | rfl
        · rfl
        · decide
      rw [List.cons_append, isFeatureName, hdrop, h.1]
      rcases htail with rfl | rfl <;> rfl

/-- The pattern of feature names lets a line end pass behind a name in snake case, and nothing
else. -/
theorem isFeatureName_iff : isFeatureName name = true ↔ IsSnakeLine name := by
  constructor
  · intro h
    cases name with
    | nil => cases h
    | cons first rest =>
        simp only [isFeatureName, Bool.and_eq_true, Bool.or_eq_true, List.isEmpty_iff,
          beq_iff_eq] at h
        obtain ⟨hfirst, htail⟩ := h
        have hbase : IsSnakeCase (first :: rest.takeWhile isNamePart) :=
          ⟨hfirst, fun d hd => List.mem_takeWhile_imp hd⟩
        have hsplit : first :: rest =
            first :: rest.takeWhile isNamePart ++ rest.dropWhile isNamePart := by
          rw [List.cons_append, List.takeWhile_append_dropWhile]
        refine ⟨_, hbase, ?_⟩
        rcases htail with htail | htail
        · rw [htail, List.append_nil] at hsplit
          exact .inl hsplit
        · rw [htail] at hsplit
          exact .inr hsplit
  · rintro ⟨base, hbase, rfl | rfl⟩
    · simpa using isFeatureName_of_snakeCase hbase [] (.inl rfl)
    · exact isFeatureName_of_snakeCase hbase _ (.inr rfl)

/-! ## Letter case -/

/-- A text in ASCII without capitals is in lower case. -/
theorem lower_of_no_capital (h : ∀ c ∈ name, c.toNat < 0x80 ∧ isCapital c = false) :
    name.lower = name := by
  have hafter : ∀ before : Text, lowerAfter before name = name := by
    induction name with
    | nil => exact fun _ => rfl
    | cons c rest ih =>
        intro before
        obtain ⟨hascii, hcapital⟩ := h c List.mem_cons_self
        have hsigma : (c.toNat == 0x3a3) = false := by
          rw [beq_eq_false_iff_ne]
          omega
        rw [lowerAfter, hsigma, lowerChar_of_ascii hascii hcapital,
          ih (fun d hd => h d (List.mem_cons_of_mem _ hd)) (c :: before)]
        rfl
  exact hafter []

theorem not_capital_of_isNamePart (h : isNamePart c = true) :
    c.toNat < 0x80 ∧ isCapital c = false := by
  have hle : ∀ a b : Char, a ≤ b → a.toNat ≤ b.toNat := fun _ _ h => h
  simp only [isNamePart, isNameStart, Bool.or_eq_true, Bool.and_eq_true, decide_eq_true_eq,
    beq_iff_eq] at h
  have hrange : c.toNat < 0x80 ∧ ¬ (0x41 ≤ c.toNat ∧ c.toNat ≤ 0x5a) := by
    rcases h with (⟨hlow, hhigh⟩ | ⟨hlow, hhigh⟩) | rfl
    · have hlow : 0x61 ≤ c.toNat := hle _ _ hlow
      have hhigh : c.toNat ≤ 0x7a := hle _ _ hhigh
      omega
    · have hhigh : c.toNat ≤ 0x39 := hle _ _ hhigh
      omega
    · decide
  exact ⟨hrange.1, Bool.eq_false_iff.2 fun hcapital => hrange.2 (isCapital_iff.1 hcapital)⟩

/-- Names that pass the pattern are in lower case. -/
theorem IsSnakeLine.lower (h : IsSnakeLine name) : name.lower = name := by
  refine lower_of_no_capital fun c hc => ?_
  obtain ⟨base, hbase, rfl | rfl⟩ := h
  · exact not_capital_of_isNamePart (hbase.mem hc)
  · rcases List.mem_append.1 hc with hc | hc
    · exact not_capital_of_isNamePart (hbase.mem hc)
    · obtain rfl := List.mem_singleton.1 hc
      decide

/-! ## The check -/

/-- A name that a feature may have: in snake case, and no restricted name up to letter case. -/
structure Config.Permits (config : Config) (name : Text) : Prop where
  snakeCase : IsSnakeCase name
  unrestricted : ∀ entry ∈ config.restrictedNames, entry.lower ≠ name.lower

instance : Decidable (config.Permits name) :=
  decidable_of_iff (IsSnakeCase name ∧ ∀ entry ∈ config.restrictedNames, entry.lower ≠ name.lower)
    ⟨fun ⟨hsnake, hfree⟩ => ⟨hsnake, hfree⟩, fun h => ⟨h.snakeCase, h.unrestricted⟩⟩

namespace Config

theorem checkName_eq_ok_iff :
    config.checkName name = .ok () ↔ IsSnakeLine name ∧ name ∉ config.restrictedNames := by
  rw [checkName]
  by_cases hline : IsSnakeLine name
  · have hne : name.isEmpty = false := by
      obtain ⟨base, hbase, rfl | rfl⟩ := hline
      · exact List.isEmpty_eq_false_iff.2 hbase.ne_nil
      · simp
    rw [hne, if_neg Bool.false_ne_true, hline.lower, isFeatureName_iff.2 hline, if_pos rfl]
    by_cases hmem : name ∈ config.restrictedNames <;> simp [hmem, hline]
  · have hfeature : isFeatureName name = false := Bool.eq_false_iff.2 (hline ∘ isFeatureName_iff.1)
    simp only [hline, false_and, iff_false, hfeature]
    split
    · nofun
    · split <;> nofun

/-- A refused name is empty, restricted or else no name in snake case, sought in this order. -/
theorem checkName_eq_error_iff {error : SelectionError} :
    config.checkName name = .error error ↔
      error = .nameMissing ∧ name = [] ∨
      error = .nameRestricted name ∧ name ≠ [] ∧ name.lower ∈ config.restrictedNames ∨
      error = .nameInvalid name ∧ name ≠ [] ∧ name.lower ∉ config.restrictedNames ∧
        ¬ IsSnakeLine name := by
  have hflip : ∀ known : SelectionError,
      (Except.error known : Except SelectionError Unit) = .error error ↔ error = known :=
    fun _ => ⟨fun h => (Except.error.inj h).symm, fun h => congrArg _ h.symm⟩
  rw [checkName, ← isFeatureName_iff]
  by_cases hnil : name = []
  · simp [hnil, hflip]
  · by_cases hmem : name.lower ∈ config.restrictedNames
    · simp [hnil, hmem, hflip]
    · cases hfeature : isFeatureName name <;> simp [hnil, hmem, hflip]

/-- A permitted name passes. -/
theorem Permits.checkName (h : config.Permits name) : config.checkName name = .ok () :=
  checkName_eq_ok_iff.2 ⟨⟨name, h.snakeCase, .inl rfl⟩, fun hmem => h.unrestricted name hmem rfl⟩

/-- If the restricted names are in lower case, a name without a line end behind it passes only if it
is permitted. -/
theorem permits_of_checkName (hlower : ∀ entry ∈ config.restrictedNames, entry.lower = entry)
    (hend : name.getLast? ≠ some '\n') (h : config.checkName name = .ok ()) :
    config.Permits name := by
  obtain ⟨hline, hfree⟩ := checkName_eq_ok_iff.1 h
  refine ⟨?_, fun entry hentry heq => ?_⟩
  · obtain ⟨base, hbase, rfl | rfl⟩ := hline
    · exact hbase
    · exact absurd (List.getLast?_concat ..) hend
  · rw [hlower entry hentry, hline.lower] at heq
    exact hfree (heq ▸ hentry)

end Config

/-- The check of a name has one of four outcomes: the name passes, if it is in snake case but for a
line end behind it and is not restricted as it stands, or it is refused for one of three reasons.
Where restricted names are in lower case and no line end stands behind the name, those that pass are
the permitted ones. -/
theorem checkName_outcome (config : Config) (name : Text) :
    (config.checkName name = .ok () ↔ IsSnakeLine name ∧ name ∉ config.restrictedNames) ∧
    (∀ error, config.checkName name = .error error ↔
      error = .nameMissing ∧ name = [] ∨
      error = .nameRestricted name ∧ name ≠ [] ∧ name.lower ∈ config.restrictedNames ∨
      error = .nameInvalid name ∧ name ≠ [] ∧ name.lower ∉ config.restrictedNames ∧
        ¬ IsSnakeLine name) ∧
    (config.Permits name → config.checkName name = .ok ()) ∧
    ((∀ entry ∈ config.restrictedNames, entry.lower = entry) → name.getLast? ≠ some '\n' →
      (config.checkName name = .ok () ↔ config.Permits name)) :=
  ⟨Config.checkName_eq_ok_iff, fun _ => Config.checkName_eq_error_iff, Config.Permits.checkName,
    fun hlower hend => ⟨Config.permits_of_checkName hlower hend, Config.Permits.checkName⟩⟩

/-- The default restricted names are in lower case, so for a name that ends as it should the check is
exact. -/
theorem checkName_outcome_orders :
    Config.Permits {} "user_orders2" ∧ Config.checkName {} "user_orders2" = .ok () ∧
      ¬ Config.Permits {} "IOS" ∧ Config.checkName {} "IOS" ≠ .ok () := by
  have hlower : ∀ entry ∈ ({} : Config).restrictedNames, entry.lower = entry := by decide
  have horders : Config.Permits {} "user_orders2" := by decide
  have hios : ¬ Config.Permits {} "IOS" := by decide
  refine ⟨horders, (checkName_outcome {} "user_orders2").2.2.1 horders, hios, ?_⟩
  rwa [Ne, (checkName_outcome {} "IOS").2.2.2 hlower (by decide)]

/-- The check lets names pass that are not permitted: one with a line end behind it, and one that is
restricted with a capital. -/
theorem not_permits_of_checkName :
    ¬ (∀ (config : Config) (name : Text), config.checkName name = .ok () ↔ config.Permits name) ∧
    (Config.checkName {} "news\n" = .ok () ∧ ¬ Config.Permits {} "news\n") ∧
    Config.checkName { restrictedNames := ["Admin"] } "admin" = .ok () ∧
      ¬ Config.Permits { restrictedNames := ["Admin"] } "admin" := by
  have hline : Config.checkName {} "news\n" = .ok () ∧ ¬ Config.Permits {} "news\n" :=
    ⟨rfl, by decide⟩
  have hcapital : Config.checkName { restrictedNames := ["Admin"] } "admin" = .ok () ∧
      ¬ Config.Permits { restrictedNames := ["Admin"] } "admin" := ⟨rfl, by decide⟩
  exact ⟨fun h => hline.2 ((h _ _).1 hline.1), hline, hcapital⟩

end Scaffold
