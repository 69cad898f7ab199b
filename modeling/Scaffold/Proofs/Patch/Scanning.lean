import Scaffold.Proofs.Patch.Matches

/-!
# Scanning for anchors

How a text is searched for the matches of an anchor, from left to right and without overlaps.
`Scans` says that scanning comes to a place between two matches; the cut behind the last match is
the end of a match that scanning comes to and behind which there is none (`splitAfterLast?_iff`).
What stands behind a place matters only to the matches that reach it: `Scans.congr` replaces it, and
`split_putLines` puts lines in.
-/

namespace Scaffold

namespace Anchor

variable {anchor : Anchor} {lineStart : Bool} {text a b rest rest' parsed front matched : Text}
  {c : Char}

/-- The cut of a text that something stands in front of. -/
def behind (front : Text) (cut : Option (Text × Text)) : Option (Text × Text) :=
  cut.map fun parts => (front ++ parts.1, parts.2)

@[simp] theorem behind_none (front : Text) : behind front none = none := rfl

@[simp] theorem behind_some (front a b : Text) :
    behind front (some (a, b)) = some (front ++ a, b) := rfl

@[simp] theorem behind_nil (cut : Option (Text × Text)) : behind [] cut = cut := by
  cases cut <;> rfl

theorem behind_append (front front' : Text) (cut : Option (Text × Text)) :
    behind (front ++ front') cut = behind front (behind front' cut) := by
  cases cut <;> simp [behind]

/-- Without a match at its start, a text is cut where its rest is. -/
theorem splitAfterLast?_cons (h : anchor.after? lineStart (c :: rest) = none) :
    anchor.splitAfterLast? lineStart 0 (c :: rest) =
      behind [c] (anchor.splitAfterLast? (c == '\n') 0 rest) := by
  have hleft : anchor.matchLeft lineStart 0 (c :: rest) = 0 := by simp [matchLeft, h]
  rw [splitAfterLast?, hleft]
  cases anchor.splitAfterLast? (c == '\n') 0 rest <;> simp [behind]

/-- Behind a match at its start, a text is cut where its rest is, else at the end of the match. -/
theorem splitAfterLast?_match (h : anchor.after? lineStart (matched ++ rest) = some rest)
    (hne : matched ≠ []) :
    anchor.splitAfterLast? lineStart 0 (matched ++ rest) =
      some ((behind matched (anchor.splitAfterLast? (startsLineAfter lineStart matched) 0 rest)).getD
        (matched, rest)) := by
  -- inside of a match only the number of its characters to come counts
  have hinside : ∀ (matched : Text) (lineStart : Bool) (inside : Nat), matched ≠ [] →
      anchor.matchLeft lineStart inside (matched ++ rest) = matched.length →
      anchor.splitAfterLast? lineStart inside (matched ++ rest) =
        some ((behind matched
          (anchor.splitAfterLast? (startsLineAfter lineStart matched) 0 rest)).getD
            (matched, rest)) := by
    intro matched
    induction matched with
    | nil => exact fun _ _ hne => absurd rfl hne
    | cons c matched ih =>
        intro lineStart inside _ hleft
        rw [List.cons_append] at hleft
        rw [List.cons_append, splitAfterLast?, hleft]
        cases matched with
        | nil =>
            simp only [List.nil_append, startsLineAfter_cons, startsLineAfter_nil,
              List.length_singleton, Nat.sub_self]
            cases anchor.splitAfterLast? (c == '\n') 0 rest <;> simp [behind]
        | cons d matched =>
            have hlength : (c :: d :: matched).length - 1 = (d :: matched).length := rfl
            rw [hlength, ih (c == '\n') (d :: matched).length (by simp) (by simp [matchLeft])]
            simp only [startsLineAfter_cons]
            cases anchor.splitAfterLast? _ 0 rest <;> simp [behind]
  refine hinside matched lineStart 0 hne ?_
  simp [matchLeft, h]

/-! ## Texts without a match -/

/-- Scanning the text meets no match. -/
def Idle (anchor : Anchor) (lineStart : Bool) (text : Text) : Prop :=
  anchor.splitAfterLast? lineStart 0 text = none

theorem idle_nil : anchor.Idle lineStart [] := rfl

theorem behind_eq_none_iff {cut : Option (Text × Text)} : behind front cut = none ↔ cut = none := by
  simp [behind]

theorem idle_cons_iff :
    anchor.Idle lineStart (c :: rest) ↔
      anchor.after? lineStart (c :: rest) = none ∧ anchor.Idle (c == '\n') rest := by
  unfold Idle
  cases hafter : anchor.after? lineStart (c :: rest) with
  | none => simp [splitAfterLast?_cons hafter, behind_eq_none_iff]
  | some rest' =>
      obtain ⟨matched, hne, htext, -⟩ := after?_eq_some hafter
      rw [htext] at hafter ⊢
      simp [splitAfterLast?_match hafter hne]

/-- A text has no match if none starts anywhere in it. -/
theorem idle_iff :
    anchor.Idle lineStart text ↔ ∀ a b, text = a ++ b →
      anchor.after? (startsLineAfter lineStart a) b = none := by
  induction text generalizing lineStart with
  | nil =>
      refine ⟨fun _ a b h => ?_, fun _ => idle_nil⟩
      obtain ⟨rfl, rfl⟩ := List.append_eq_nil_iff.1 h.symm
      exact after?_nil
  | cons c rest ih =>
      rw [idle_cons_iff, ih]
      constructor
      · rintro ⟨hfirst, hrest⟩ a b h
        cases a with
        | nil =>
            obtain rfl : c :: rest = b := h
            exact hfirst
        | cons d a =>
            obtain ⟨rfl, rfl⟩ := List.cons.inj h
            exact hrest a b rfl
      · intro h
        exact ⟨h [] (c :: rest) rfl, fun a b hab => h (c :: a) b (by rw [hab]; rfl)⟩

theorem Idle.of_append (h : anchor.Idle lineStart (a ++ b)) :
    anchor.Idle (startsLineAfter lineStart a) b := by
  rw [idle_iff] at h ⊢
  intro a' b' hb
  rw [← startsLineAfter_append]
  exact h (a ++ a') b' (by rw [hb, List.append_assoc])

/-- Text in which no match starts only moves the cut. -/
theorem splitAfterLast?_append
    (h : ∀ front left, a = front ++ left → left ≠ [] →
      anchor.after? (startsLineAfter lineStart front) (left ++ b) = none) :
    anchor.splitAfterLast? lineStart 0 (a ++ b) =
      behind a (anchor.splitAfterLast? (startsLineAfter lineStart a) 0 b) := by
  induction a generalizing lineStart with
  | nil => simp
  | cons c a ih =>
      have hfirst : anchor.after? lineStart (c :: (a ++ b)) = none := h [] (c :: a) rfl (by simp)
      have hrest := ih fun front left ha => h (c :: front) left (by rw [ha]; rfl)
      rw [List.cons_append, splitAfterLast?_cons hfirst, hrest, ← behind_append]
      rfl

/-- A line that is no match. -/
theorem splitAfterLast?_line (hlines : anchor.WholeLines) (hline : '\n' ∉ a)
    (h : anchor.after? lineStart (a ++ '\n' :: b) = none) :
    anchor.splitAfterLast? lineStart 0 (a ++ '\n' :: b) =
      behind (a ++ ['\n']) (anchor.splitAfterLast? true 0 b) := by
  suffices hcut : anchor.splitAfterLast? lineStart 0 (a ++ ['\n'] ++ b) =
      behind (a ++ ['\n']) (anchor.splitAfterLast? (startsLineAfter lineStart (a ++ ['\n'])) 0 b) by
    simpa using hcut
  · refine splitAfterLast?_append fun front left hfront hleft => ?_
    rcases List.append_eq_append_iff.1 hfront with ⟨mid, rfl, hmid⟩ | ⟨mid, rfl, rfl⟩
    · -- the break itself is left
      have hbreak : left = ['\n'] := by
        rcases List.append_eq_cons_iff.1 hmid.symm with ⟨-, rfl⟩ | ⟨others, -, hnil⟩
        · rfl
        · exact absurd (List.append_eq_nil_iff.1 hnil.symm).2 hleft
      rw [hbreak]
      exact after?_of_not_indent hlines (by decide)
    · cases front with
      | nil => simpa using h
      | cons c front =>
          have hfront : '\n' ∉ c :: front := fun hmem => hline (List.mem_append_left _ hmem)
          rw [startsLineAfter_of_not_mem (by simp) hfront]
          exact after?_of_mid_line hlines

/-! ## Places between matches -/

/-- With `rest` behind it, the text is scanned to its end, and the end lies in no match. -/
inductive Scans (anchor : Anchor) (rest : Text) : Bool → Text → Prop
  | nil (lineStart : Bool) : Scans anchor rest lineStart []
  | skip {lineStart : Bool} {c : Char} {parsed : Text} :
      anchor.after? lineStart (c :: (parsed ++ rest)) = none →
      Scans anchor rest (c == '\n') parsed → Scans anchor rest lineStart (c :: parsed)
  | take {lineStart : Bool} {matched parsed : Text} : matched ≠ [] →
      anchor.after? lineStart (matched ++ (parsed ++ rest)) = some (parsed ++ rest) →
      Scans anchor rest (startsLineAfter lineStart matched) parsed →
      Scans anchor rest lineStart (matched ++ parsed)

theorem Scans.split (h : anchor.Scans rest lineStart parsed)
    (hrest : anchor.splitAfterLast? (startsLineAfter lineStart parsed) 0 rest = some (a, b)) :
    anchor.splitAfterLast? lineStart 0 (parsed ++ rest) = some (parsed ++ a, b) := by
  induction h with
  | nil => exact hrest
  | skip hafter _ ih => rw [List.cons_append, splitAfterLast?_cons hafter, ih hrest]; rfl
  | take hne hafter _ ih =>
      rw [startsLineAfter_append] at hrest
      rw [List.append_assoc, splitAfterLast?_match hafter hne, ih hrest]
      simp

theorem Scans.append {next : Text} (h : anchor.Scans (next ++ rest) lineStart parsed)
    (hnext : anchor.Scans rest (startsLineAfter lineStart parsed) next) :
    anchor.Scans rest lineStart (parsed ++ next) := by
  induction h with
  | nil => exact hnext
  | skip hafter _ ih => exact .skip (by simpa using hafter) (ih hnext)
  | take hne hafter _ ih =>
      rw [startsLineAfter_append] at hnext
      rw [List.append_assoc]
      exact .take hne (by rwa [List.append_assoc]) (ih hnext)

theorem Scans.of_idle (h : ∀ a b, parsed = a ++ b → b ≠ [] →
      anchor.after? (startsLineAfter lineStart a) (b ++ rest) = none) :
    anchor.Scans rest lineStart parsed := by
  induction parsed generalizing lineStart with
  | nil => exact .nil lineStart
  | cons c parsed ih =>
      refine .skip (h [] (c :: parsed) rfl (by simp)) (ih fun a b hparsed => ?_)
      exact h (c :: a) b (by rw [hparsed]; rfl)

/-- The cut of a text is the end of a match that scanning comes to and that no other one follows. -/
theorem splitAfterLast?_iff :
    anchor.splitAfterLast? lineStart 0 text = some (a, b) ↔
      ∃ front matched, a = front ++ matched ∧ text = front ++ (matched ++ b) ∧
        anchor.Scans (matched ++ b) lineStart front ∧ matched ≠ [] ∧
        anchor.after? (startsLineAfter lineStart front) (matched ++ b) = some b ∧
        anchor.Idle (startsLineAfter lineStart a) b := by
  constructor
  · intro h
    induction hlength : text.length using Nat.strong_induction_on generalizing text lineStart a with
    | _ n ih =>
    cases text with
    | nil => simp [splitAfterLast?] at h
    | cons c rest =>
        cases hafter : anchor.after? lineStart (c :: rest) with
        | none =>
            rw [splitAfterLast?_cons hafter] at h
            obtain ⟨⟨a', b'⟩, hrest, heq⟩ := Option.map_eq_some_iff.1 h
            obtain ⟨rfl, rfl⟩ := Prod.mk.inj heq
            have hless : rest.length < n := by
              rw [← hlength]
              exact Nat.lt_succ_self _
            obtain ⟨front, matched, rfl, rfl, hscans, hne, hmatch, hidle⟩ :=
              ih rest.length hless hrest rfl
            exact ⟨c :: front, matched, rfl, rfl, .skip hafter hscans, hne, hmatch, hidle⟩
        | some rest' =>
            obtain ⟨first, hne, htext, -⟩ := after?_eq_some hafter
            rw [htext] at hafter h
            rw [splitAfterLast?_match hafter hne] at h
            have hless : rest'.length < n := by
              have hpos : 0 < first.length := List.length_pos_iff.2 hne
              rw [← hlength, htext, List.length_append]
              omega
            cases hrest : anchor.splitAfterLast? (startsLineAfter lineStart first) 0 rest' with
            | none =>
                rw [hrest] at h
                obtain ⟨rfl, rfl⟩ := Prod.mk.inj (Option.some.inj h)
                exact ⟨[], first, rfl, htext, .nil lineStart, hne, hafter, hrest⟩
            | some parts =>
                obtain ⟨a', b'⟩ := parts
                rw [hrest] at h
                obtain ⟨rfl, rfl⟩ := Prod.mk.inj (Option.some.inj h)
                obtain ⟨front, matched, rfl, hrest', hscans, hne', hmatch, hidle⟩ :=
                  ih rest'.length hless hrest rfl
                refine ⟨first ++ front, matched, by simp, by rw [htext, hrest', List.append_assoc],
                  .take hne (hrest' ▸ hafter) hscans, hne', ?_, ?_⟩
                · rwa [startsLineAfter_append]
                · rwa [startsLineAfter_append]
  · rintro ⟨front, matched, rfl, rfl, hscans, hne, hmatch, hidle⟩
    refine hscans.split ?_
    rw [startsLineAfter_append] at hidle
    rw [splitAfterLast?_match hmatch hne, hidle]
    rfl

/-! ## Other text behind a place -/

/-- A match that starts in `left` and ends there, or no match, stays one when `rest'` stands behind
`left` instead of `rest`. -/
structure Carries (anchor : Anchor) (left rest rest' : Text) : Prop where
  none : ∀ lineStart, anchor.after? lineStart (left ++ rest) = none →
    anchor.after? lineStart (left ++ rest') = none
  some : ∀ lineStart last, anchor.after? lineStart (left ++ rest) = some (last ++ rest) →
    anchor.after? lineStart (left ++ rest') = some (last ++ rest')

theorem Carries.of_alike {left : Text}
    (h : ∀ lineStart, Alike rest rest' (anchor.after? lineStart (left ++ rest))
      (anchor.after? lineStart (left ++ rest'))) : anchor.Carries left rest rest' where
  none lineStart hnone := by
    rcases h lineStart with ⟨-, h'⟩ | ⟨last, h, -⟩
    · exact h'
    · rw [hnone] at h
      cases h
  some lineStart last hsome := by
    rcases h lineStart with ⟨h, -⟩ | ⟨last', h, h'⟩
    · rw [hsome] at h
      cases h
    · rw [hsome] at h
      rwa [List.append_cancel_right (Option.some.inj h)]

theorem Carries.of_append {left : Text} (h : anchor.Carries (left ++ matched) rest rest') :
    anchor.Carries left (matched ++ rest) (matched ++ rest') where
  none lineStart hnone := by
    rw [← List.append_assoc] at hnone ⊢
    exact h.none lineStart hnone
  some lineStart last hsome := by
    rw [← List.append_assoc, ← List.append_assoc] at hsome ⊢
    exact h.some lineStart (last ++ matched) hsome

/-- What stands behind a place may be replaced if the matches in front of it are carried over. -/
theorem Scans.congr (h : anchor.Scans rest lineStart parsed)
    (hcarries : ∀ left, left <:+ parsed → left ≠ [] → anchor.Carries left rest rest') :
    anchor.Scans rest' lineStart parsed := by
  induction h with
  | nil lineStart => exact .nil lineStart
  | @skip lineStart c parsed hafter _ ih =>
      exact .skip ((hcarries (c :: parsed) (List.suffix_refl _) (by simp)).none lineStart hafter)
        (ih fun left hleft => hcarries left (hleft.trans (List.suffix_cons c parsed)))
  | @take lineStart matched parsed hne hafter _ ih =>
      refine .take hne ?_ (ih fun left hleft => hcarries left
        (hleft.trans (List.suffix_append matched parsed)))
      rw [← List.append_assoc] at hafter ⊢
      exact (hcarries (matched ++ parsed) (List.suffix_refl _) (by simp [hne])).some lineStart _
        hafter

/-- Text put in behind the last match is scanned from there on. -/
theorem splitAfterLast?_insert {x : Text}
    (h : anchor.splitAfterLast? lineStart 0 (a ++ b) = some (a, b))
    (hcarries : ∀ lineStart left matched, left ++ matched <:+ a → matched ≠ [] →
      anchor.after? lineStart (matched ++ b) = some b →
      anchor.Carries (left ++ matched) b (x ++ b))
    (hx : anchor.Idle (startsLineAfter lineStart a) b →
      anchor.splitAfterLast? (startsLineAfter lineStart a) 0 (x ++ b) = some (x, b)) :
    anchor.splitAfterLast? lineStart 0 (a ++ (x ++ b)) = some (a ++ x, b) := by
  obtain ⟨front, matched, rfl, -, hscans, hne, hmatch, hidle⟩ := splitAfterLast?_iff.1 h
  have hcarried : ∀ left, left <:+ front → anchor.Carries (left ++ matched) b (x ++ b) := by
    rintro left ⟨first, rfl⟩
    exact hcarries _ left matched ⟨first, by simp⟩ hne hmatch
  have hfront : anchor.Scans (matched ++ (x ++ b)) lineStart front :=
    hscans.congr fun left hleft _ => (hcarried left hleft).of_append
  have hlast : anchor.Scans (x ++ b) (startsLineAfter lineStart front) matched := by
    have hafter := (hcarried [] List.nil_suffix).some (startsLineAfter lineStart front) [] hmatch
    have htake : anchor.Scans (x ++ b) (startsLineAfter lineStart front) (matched ++ []) :=
      .take hne (by simpa using hafter) (.nil _)
    simpa using htake
  exact (hfront.append hlast).split (hx hidle)

/-- Text put in behind the last match becomes part of it. -/
theorem splitAfterLast?_stretch {x : Text}
    (h : anchor.splitAfterLast? lineStart 0 (a ++ b) = some (a, b))
    (hcarries : ∀ left matched, left ++ matched <:+ a → left ≠ [] → matched ≠ [] →
      anchor.Carries left (matched ++ b) (matched ++ (x ++ b)))
    (hmatched : ∀ lineStart matched, matched ≠ [] → anchor.after? lineStart (matched ++ b) = some b →
      anchor.after? lineStart (matched ++ (x ++ b)) = some b)
    (hx : anchor.Idle (startsLineAfter lineStart a) b →
      anchor.Idle (startsLineAfter lineStart (a ++ x)) b) :
    anchor.splitAfterLast? lineStart 0 (a ++ (x ++ b)) = some (a ++ x, b) := by
  obtain ⟨front, matched, rfl, -, hscans, hne, hmatch, hidle⟩ := splitAfterLast?_iff.1 h
  refine splitAfterLast?_iff.2 ⟨front, matched ++ x, by simp, by simp, ?_, by simp [hne], ?_,
    hx hidle⟩
  · rw [List.append_assoc]
    refine hscans.congr fun left hleft hne' => ?_
    obtain ⟨first, rfl⟩ := hleft
    exact hcarries left matched ⟨first, by simp⟩ hne' hne
  · rw [List.append_assoc]
    exact hmatched _ matched hne hmatch

/-- A row of texts with one match at the end of each. -/
theorem splitAfterLast?_row {α : Type} {parts : List α} {piece : α → Text} (good : Text → Prop)
    (hne : parts ≠ []) (hb : good b)
    (hidle : ∀ part ∈ parts, ∀ lineStart, anchor.Idle (startsLineAfter lineStart (piece part)) b)
    (hgood : ∀ part ∈ parts, ∀ rest, good rest → good (piece part ++ rest))
    (hpiece : ∀ part ∈ parts, ∀ lineStart rest, good rest → ∃ front matched,
      piece part = front ++ matched ∧ matched ≠ [] ∧
      anchor.after? (startsLineAfter lineStart front) (matched ++ rest) = some rest ∧
      ∀ first left, front = first ++ left → left ≠ [] →
        anchor.after? (startsLineAfter lineStart first) (left ++ (matched ++ rest)) = none) :
    anchor.splitAfterLast? lineStart 0 (parts.flatMap piece ++ b) =
      some (parts.flatMap piece, b) := by
  induction parts generalizing lineStart with
  | nil => exact absurd rfl hne
  | cons part parts ih =>
      have hrest : good (parts.flatMap piece ++ b) := by
        clear ih hne hidle hpiece
        induction parts with
        | nil => exact hb
        | cons part' parts ih =>
            rw [List.flatMap_cons, List.append_assoc]
            refine hgood part' (by simp) _ (ih fun other hother => hgood other ?_)
            rcases List.mem_cons.1 hother with rfl | hother
            · simp
            · simp [hother]
      obtain ⟨front, matched, heq, hmatched, hafter, hfront⟩ :=
        hpiece part (by simp) lineStart _ hrest
      rw [List.flatMap_cons, List.append_assoc, heq, List.append_assoc,
        splitAfterLast?_append hfront, splitAfterLast?_match hafter hmatched]
      by_cases hnil : parts = []
      · subst hnil
        have hlast := hidle part (by simp) lineStart
        rw [heq, startsLineAfter_append] at hlast
        rw [List.flatMap_nil, List.nil_append, hlast]
        simp
      · rw [ih hnil (fun other hother => hidle other (by simp [hother]))
          (fun other hother => hgood other (by simp [hother]))
          fun other hother => hpiece other (by simp [hother])]
        simp

/-! ## Lines put in -/

/-- The cut of a text before and after `x` has been put in between `front` and `rest`. -/
inductive Shifted (front x rest : Text) : Option (Text × Text) → Option (Text × Text) → Prop
  | none : Shifted front x rest none none
  | left {a b : Text} : front = a ++ b →
      Shifted front x rest (some (a, b ++ rest)) (some (a, b ++ (x ++ rest)))
  | right {a b : Text} : rest = a ++ b →
      Shifted front x rest (some (front ++ a, b)) (some (front ++ (x ++ a), b))

theorem Shifted.behind {x : Text} {cut cut' : Option (Text × Text)}
    (h : Shifted front x rest cut cut') :
    Shifted (a ++ front) x rest (behind a cut) (behind a cut') := by
  cases h with
  | none => exact .none
  | @left a' b' h => exact .left (by rw [h, List.append_assoc])
  | @right a' b' h =>
      have hright : Shifted (a ++ front) x rest (some (a ++ front ++ a', b'))
          (some (a ++ front ++ (x ++ a'), b')) := .right h
      simpa using hright

/-- How the match at the start of a text, if any, changes when `x` is put in between `left` and
`rest`. -/
inductive Across (left x rest : Text) : Option Text → Option Text → Prop
  | none : Across left x rest none none
  | before {last : Text} : Across left x rest (some (last ++ rest)) (some (last ++ (x ++ rest)))
  | behind {used last : Text} : used ≠ [] → rest = used ++ last →
      Across left x rest (some last) (some last)

/-- Text that is put in where scanning it meets no match only moves the cut. -/
theorem shifted_splitAfterLast? {x : Text}
    (hacross : ∀ lineStart left, left <:+ front → left ≠ [] →
      Across left x rest (anchor.after? lineStart (left ++ rest))
        (anchor.after? lineStart (left ++ (x ++ rest))))
    (hx : anchor.splitAfterLast? (startsLineAfter lineStart front) 0 (x ++ rest) =
      behind x (anchor.splitAfterLast? (startsLineAfter lineStart front) 0 rest)) :
    Shifted front x rest (anchor.splitAfterLast? lineStart 0 (front ++ rest))
      (anchor.splitAfterLast? lineStart 0 (front ++ (x ++ rest))) := by
  induction hlength : front.length using Nat.strong_induction_on generalizing front lineStart with
  | _ n ih =>
  cases front with
  | nil =>
      rw [startsLineAfter_nil] at hx
      rw [List.nil_append, List.nil_append, hx]
      cases hcut : anchor.splitAfterLast? lineStart 0 rest with
      | none => exact .none
      | some parts => exact .right (splitAfterLast?_eq_some_append hcut)
  | cons c front =>
      have hwhole := hacross lineStart (c :: front) (List.suffix_refl _) (by simp)
      cases hafter : anchor.after? lineStart (c :: front ++ rest) with
      | none =>
          rw [hafter] at hwhole
          have hafter' : anchor.after? lineStart (c :: front ++ (x ++ rest)) = none := by
            generalize anchor.after? lineStart (c :: front ++ (x ++ rest)) = answer at hwhole
            cases hwhole
            rfl
          rw [List.cons_append] at hafter hafter' ⊢
          rw [splitAfterLast?_cons hafter, List.cons_append, splitAfterLast?_cons hafter']
          have hless : front.length < n := by
            rw [← hlength]
            exact Nat.lt_succ_self _
          refine Shifted.behind (a := [c]) (ih _ hless (fun lineStart left hleft => ?_) hx rfl)
          exact hacross lineStart left (hleft.trans (List.suffix_cons c front))
      | some last =>
          rw [hafter] at hwhole
          obtain ⟨matched, hmatched, htext, -⟩ := after?_eq_some hafter
          generalize hafter' : anchor.after? lineStart (c :: front ++ (x ++ rest)) = answer at hwhole
          cases hwhole with
          | @before last =>
              -- the match ends in front of the place
              rw [← List.append_assoc] at htext
              have hfront := List.append_cancel_right htext
              rw [hfront] at hafter hafter' hacross hx hlength ⊢
              rw [List.append_assoc] at hafter hafter' ⊢
              rw [List.append_assoc, splitAfterLast?_match hafter hmatched,
                splitAfterLast?_match hafter' hmatched]
              rw [startsLineAfter_append] at hx
              have hless : last.length < n := by
                have hpos : 0 < matched.length := List.length_pos_iff.2 hmatched
                rw [← hlength, List.length_append]
                omega
              have hlast := ih _ hless (fun lineStart left hleft => hacross lineStart left
                (hleft.trans (List.suffix_append matched last))) hx rfl
              generalize anchor.splitAfterLast? _ 0 (last ++ rest) = cut at hlast ⊢
              generalize anchor.splitAfterLast? _ 0 (last ++ (x ++ rest)) = cut' at hlast ⊢
              cases hlast with
              | none => exact .left rfl
              | left h => exact .left (by rw [h, List.append_assoc])
              | @right a b h =>
                  have hright : Shifted (matched ++ last) x rest (some (matched ++ last ++ a, b))
                      (some (matched ++ last ++ (x ++ a), b)) := .right h
                  simpa using hright
          | @behind used last hused hrest =>
              -- the match goes on behind the place
              have hfront : matched = c :: front ++ used := by
                rw [hrest, ← List.append_assoc] at htext
                exact (List.append_cancel_right htext).symm
              subst hfront
              have hlines : startsLineAfter lineStart (c :: front ++ (x ++ used)) =
                  startsLineAfter lineStart (c :: front ++ used) := by
                rw [startsLineAfter_append, startsLineAfter_append, startsLineAfter_append]
                exact startsLineAfter_of_ne_nil hused _ _
              have htext' : c :: front ++ (x ++ rest) = c :: front ++ (x ++ used) ++ last := by
                simp [hrest]
              rw [htext] at hafter ⊢
              rw [htext'] at hafter' ⊢
              rw [splitAfterLast?_match hafter (by simp), splitAfterLast?_match hafter' (by simp),
                hlines]
              cases hcut : anchor.splitAfterLast? _ 0 last with
              | none => exact .right hrest
              | some parts =>
                  obtain ⟨a, b⟩ := parts
                  have hlast : rest = used ++ a ++ b := by
                    rw [hrest, splitAfterLast?_eq_some_append hcut, List.append_assoc]
                  have hright : Shifted (c :: front) x rest
                      (some (c :: front ++ (used ++ a), b))
                      (some (c :: front ++ (x ++ (used ++ a)), b)) := .right hlast
                  simpa using hright

end Anchor

end Scaffold
