import Scaffold.Proofs.Patch.Annotations
import Scaffold.Proofs.Text.Newlines

/-!
# Annotations that stay

Text that goes in between two annotations takes neither of them away
(`annotationsFrom_append_of_apart`), and text behind all of them adds to them at most
(`annotatedKeys_append`). Members go in in front of the last brace, behind which no annotation
lies if there are no quotes; imports go in where a line ends, which may lie within an annotation,
whose path can have line breaks. Where it does not (`HasWholeAnnotations`), a service file that is
extended keeps the keys it had (`subset_annotatedKeys_insert`).
-/

namespace Scaffold

open Anchor

variable {a b p q t u v x y head foot text content result rest : Text} {key : EndpointKey}
  {paths missing : List Text} {feature : Feature} {endpoints : List Endpoint}

/-! ## The text of an annotation -/

/-- The text is an annotation that is read as the key. -/
def IsAnnotation (text : Text) (key : EndpointKey) : Prop :=
  ∃ verb ∈ annotatedVerbs, ∃ path, path ≠ [] ∧ '"' ∉ path ∧ text = annotationText verb path ∧
    key = (verb.lower, path)

/-- What is read at the start of a text is an annotation there. -/
theorem annotationAt?_eq_some_iff :
    annotationAt? text = some key ↔ ∃ first rest, text = first ++ rest ∧ IsAnnotation first key := by
  constructor
  · intro h
    simp only [annotationAt?, Option.bind_eq_bind, Option.bind_eq_some_iff] at h
    obtain ⟨behind, hsign, verb, hfind, inside, hopen, rest, hclose, hkey⟩ := h
    obtain rfl := Text.after?_eq_some_iff.1 hsign
    have hverb : (Text.after? verb behind).isSome = true := by simpa using List.find?_some hfind
    obtain ⟨called, hcalled⟩ := Option.isSome_iff_exists.1 hverb
    obtain rfl := Text.after?_eq_some_iff.1 hcalled
    rw [List.drop_left] at hopen
    obtain rfl := Text.after?_eq_some_iff.1 hopen
    have hclose := Text.after?_eq_some_iff.1 hclose
    have hinside := List.takeWhile_append_dropWhile (p := (· != '"')) (l := inside)
    generalize hpath : inside.takeWhile (· != '"') = path at hclose hkey hinside
    rw [← hinside, List.drop_left] at hclose
    rw [hclose] at hinside
    split at hkey
    · cases hkey
    · next hne =>
      refine ⟨annotationText verb path, rest, ?_, verb, List.mem_of_find?_eq_some hfind, path,
        by simpa using hne, fun hmem => ?_, rfl, (Option.some.inj hkey).symm⟩
      · rw [← hinside]
        simp [annotationText]
      · rw [← hpath] at hmem
        simpa using List.mem_takeWhile_imp hmem
  · rintro ⟨first, rest, rfl, verb, hverb, path, hpath, hquote, rfl, rfl⟩
    exact annotationAt?_annotationText hverb hpath hquote rest

namespace IsAnnotation

theorem ne_nil (h : IsAnnotation text key) : text ≠ [] := by
  obtain ⟨verb, -, path, -, -, rfl, -⟩ := h
  simp [annotationText]

/-- Reading an annotation goes on behind it. -/
theorem reads (h : IsAnnotation text key) : Reads text [key] := by
  obtain ⟨verb, hverb, path, hpath, hquote, rfl, rfl⟩ := h
  exact reads_annotationText hverb hpath hquote

/-- An annotation ends with a quote, which is its second one, and a parenthesis. -/
theorem exists_quotes (h : IsAnnotation text key) : ∃ front path, text = front ++ '"' :: (path ++ "\")") ∧
    '"' ∉ front ∧ '"' ∉ path ∧ path ≠ [] := by
  obtain ⟨verb, hverb, path, hpath, hquote, rfl, -⟩ := h
  have hfront : ∀ verb ∈ annotatedVerbs, '"' ∉ ("@" ++ verb ++ "(" : Text) := by decide
  exact ⟨"@" ++ verb ++ "(", path, by simp [annotationText], hfront verb hverb, hquote, hpath⟩

theorem count_quotes (h : IsAnnotation text key) : text.count '"' = 2 := by
  obtain ⟨front, path, rfl, hfront, hpath, -⟩ := h.exists_quotes
  simp [List.count_append, List.count_eq_zero_of_not_mem, hfront, hpath]

/-- A part at the end of an annotation has a quote, or is its last parenthesis. -/
theorem suffix_cases (h : IsAnnotation (a ++ b) key) (hb : b ≠ []) : '"' ∈ b ∨ b = [')'] := by
  obtain ⟨front, path, htext, -⟩ := h.exists_quotes
  have hclose : "\")".toList <:+ a ++ b := ⟨front ++ '"' :: path, by simp [htext]⟩
  rcases List.suffix_or_suffix_of_suffix hclose (List.suffix_append a b) with hsuffix | hsuffix
  · exact .inl (hsuffix.mem (by decide))
  · have hcases : b = "\")".toList ∨ b = [')'] ∨ b = [] := by
      simpa [List.suffix_cons_iff] using hsuffix
    rcases hcases with rfl | rfl | rfl
    · exact .inl (by decide)
    · exact .inr rfl
    · exact absurd rfl hb

/-- No annotation lies within the part of another one in front of its end. -/
theorem not_within {other : EndpointKey} (h : IsAnnotation (a ++ b) key) (hb : b ≠ [])
    (hother : IsAnnotation text other) : ¬ text <:+: a := by
  rintro ⟨front, behind, rfl⟩
  have hcount := h.count_quotes
  have hinner := hother.count_quotes
  simp only [List.count_append] at hcount
  have hnone : '"' ∉ behind ∧ '"' ∉ b := by
    constructor <;>
    · rw [← List.count_eq_zero]
      omega
  -- the parenthesis behind the second quote is the last character of both
  obtain ⟨first, path, rfl, -, -, -⟩ := hother.exists_quotes
  obtain rfl := (h.suffix_cases hb).resolve_left hnone.2
  have hsplit : front ++ (first ++ '"' :: path) ++ '"' :: (')' :: behind) ++ [')'] =
      front ++ (first ++ '"' :: (path ++ "\")")) ++ behind ++ [')'] := by simp
  rw [← hsplit] at h
  have hends : IsAnnotation ((front ++ (first ++ '"' :: path) ++ ['"']) ++ (')' :: (behind ++ [')'])))
      key := by simpa using h
  rcases hends.suffix_cases (by simp) with hquote | hlast
  · simp [hnone.1] at hquote
  · simp at hlast

end IsAnnotation

/-! ## Reading in parts -/

/-- Each annotation that starts in `a` ends in it, though `b` follows. -/
def Apart (a b : Text) : Prop :=
  ∀ first rest key, a = first ++ rest → rest ≠ [] → annotationAt? (rest ++ b) = some key →
    annotationAt? rest = some key

theorem Apart.of_append (h : Apart (a ++ x) b) : Apart x b := by
  rintro first rest key rfl
  exact h (a ++ first) rest key (by simp)

/-- Where annotations stay apart, each part is read by itself. -/
theorem annotationsFrom_append_of_apart (h : Apart a b) :
    annotationsFrom 0 (a ++ b) = annotationsFrom 0 a ++ annotationsFrom 0 b := by
  induction hlength : a.length using Nat.strong_induction_on generalizing a with
  | _ n ih =>
    cases a with
    | nil => rfl
    | cons c a =>
        cases hread : annotationAt? (c :: a) with
        | some key =>
            obtain ⟨first, rest, htext, hfirst⟩ := annotationAt?_eq_some_iff.1 hread
            rw [htext] at h hlength ⊢
            have hshort : rest.length < n := by
              have := List.length_pos_iff.2 hfirst.ne_nil
              simp only [List.length_append] at hlength
              omega
            rw [List.append_assoc, hfirst.reads, hfirst.reads, ih _ hshort h.of_append rfl,
              List.append_assoc]
        | none =>
            have hnone : annotationAt? (c :: a ++ b) = none := by
              cases hlong : annotationAt? (c :: a ++ b) with
              | none => rfl
              | some key =>
                  rw [h [] (c :: a) key rfl (by simp) hlong] at hread
                  cases hread
            rw [List.cons_append] at hnone ⊢
            rw [annotationsFrom, annotationsFrom, hnone, hread]
            have happart : Apart a b := Apart.of_append (a := [c]) h
            exact ih a.length (by simp [← hlength]) happart rfl

/-- A key that is read is that of an annotation in the text. -/
theorem exists_of_mem_annotationsFrom {inside : Nat} (h : key ∈ annotationsFrom inside text) :
    ∃ part, part <:+: text ∧ IsAnnotation part key := by
  induction text generalizing inside with
  | nil => simp [annotationsFrom] at h
  | cons c text ih =>
      have hlater : ∀ {inside : Nat}, key ∈ annotationsFrom inside text →
          ∃ part, part <:+: c :: text ∧ IsAnnotation part key := fun hmem => by
        obtain ⟨part, hpart, hkey⟩ := ih hmem
        exact ⟨part, hpart.trans ⟨[c], [], by simp⟩, hkey⟩
      cases inside with
      | succ inside => exact hlater h
      | zero =>
          rw [annotationsFrom] at h
          split at h
          · next other hread =>
            rcases List.mem_cons.1 h with rfl | hmem
            · obtain ⟨part, rest, htext, hkey⟩ := annotationAt?_eq_some_iff.1 hread
              exact ⟨part, ⟨[], rest, by simp [htext]⟩, hkey⟩
            · exact hlater hmem
          · exact hlater h

/-- An annotation at the start of a longer text is one of the text, or goes on behind it. -/
theorem annotationAt?_append_cases (h : annotationAt? (a ++ b) = some key) :
    annotationAt? a = some key ∨ ∃ t rest, t ≠ [] ∧ b = t ++ rest ∧ IsAnnotation (a ++ t) key := by
  obtain ⟨first, rest, htext, hfirst⟩ := annotationAt?_eq_some_iff.1 h
  rcases List.append_eq_append_iff.1 htext with ⟨t, rfl, rfl⟩ | ⟨behind, rfl, rfl⟩
  · by_cases ht : t = []
    · subst ht
      exact .inl (annotationAt?_eq_some_iff.2 ⟨a, [], by simp, by simpa using hfirst⟩)
    · exact .inr ⟨t, rest, ht, rfl, hfirst⟩
  · exact .inl (annotationAt?_eq_some_iff.2 ⟨first, behind, rfl, hfirst⟩)

/-- Text behind a text takes no annotation away. -/
theorem annotatedKeys_append (a b : Text) : annotatedKeys a <+: annotatedKeys (a ++ b) := by
  unfold annotatedKeys
  induction hlength : a.length using Nat.strong_induction_on generalizing a with
  | _ n ih =>
    cases a with
    | nil => exact List.nil_prefix
    | cons c a =>
        cases hread : annotationAt? (c :: a) with
        | some key =>
            obtain ⟨first, rest, htext, hfirst⟩ := annotationAt?_eq_some_iff.1 hread
            rw [htext] at hlength ⊢
            have hshort : rest.length < n := by
              have := List.length_pos_iff.2 hfirst.ne_nil
              simp only [List.length_append] at hlength
              omega
            rw [List.append_assoc, hfirst.reads, hfirst.reads]
            exact (List.prefix_append_right_inj _).2 (ih _ hshort rest rfl)
        | none =>
            rw [annotationsFrom, hread]
            cases hlong : annotationAt? (c :: a ++ b) with
            | none =>
                rw [List.cons_append] at hlong ⊢
                rw [annotationsFrom, hlong]
                exact ih a.length (by simp [← hlength]) a rfl
            | some key =>
                -- an annotation goes over the end of the text, so none lies behind its start
                rcases annotationAt?_append_cases hlong with hwithin | ⟨t, rest, ht, -, hover⟩
                · rw [hwithin] at hread
                  cases hread
                · have hnone : annotationsFrom 0 a = [] := by
                    refine List.eq_nil_iff_forall_not_mem.2 fun other hother => ?_
                    obtain ⟨part, hpart, hkey⟩ := exists_of_mem_annotationsFrom hother
                    exact hover.not_within ht hkey (hpart.trans ⟨[c], [], by simp⟩)
                  show annotationsFrom 0 a <+: _
                  rw [hnone]
                  exact List.nil_prefix

/-- No annotation goes on in text without quotes, unless with a parenthesis. -/
theorem Apart.of_not_mem (hquote : '"' ∉ b) (hhead : b.head? ≠ some ')') : Apart a b := by
  rintro first rest key rfl - hread
  rcases annotationAt?_append_cases hread with hwithin | ⟨t, behind, ht, rfl, hover⟩
  · exact hwithin
  · rcases hover.suffix_cases ht with hmem | rfl
    · simp [hmem] at hquote
    · simp at hhead

/-! ## Imports between annotations -/

/-- An annotation stays one when text that ends with a line break, and has no quote, is taken out of
it behind a line break. -/
theorem IsAnnotation.exists_without (h : IsAnnotation (a ++ (x ++ b)) key)
    (ha : a.getLast? = some '\n') (hx : x.getLast? = some '\n') (hb : b ≠ []) :
    ∃ other, IsAnnotation (a ++ b) other := by
  obtain ⟨verb, hverb, path, -, hquote, htext, -⟩ := h
  have hbreak : ∀ verb ∈ annotatedVerbs, '\n' ∉ ("@" ++ verb ++ "(\"" : Text) := by decide
  have hbreak := hbreak verb hverb
  have htext : a ++ (x ++ b) = ("@" ++ verb ++ "(\"") ++ (path ++ "\")") := by
    rw [htext]
    simp [annotationText]
  generalize hopening : ("@" ++ verb ++ "(\"" : Text) = opening at hbreak htext
  -- the line break in front is one of the path
  obtain ⟨p, rfl⟩ : opening <+: a := by
    rcases List.prefix_or_prefix_of_prefix (List.prefix_append a (x ++ b))
        (htext ▸ List.prefix_append opening _) with hin | hin
    · exact absurd (hin.mem (List.mem_of_getLast? ha)) hbreak
    · exact hin
  have hp : p ≠ [] := by
    rintro rfl
    exact hbreak (by simpa using List.mem_of_getLast? ha)
  rw [List.append_assoc, List.append_cancel_left_eq] at htext
  -- and the line break behind is in front of the quote
  obtain ⟨q, rfl⟩ : "\")".toList <:+ b := by
    have hbehind : b <:+ path ++ "\")".toList := htext ▸ ⟨p ++ x, by simp⟩
    rcases List.suffix_or_suffix_of_suffix hbehind (List.suffix_append path _) with hsuffix | hsuffix
    · have hcases : b = "\")".toList ∨ b = [')'] ∨ b = [] := by
        simpa [List.suffix_cons_iff] using hsuffix
      rcases hcases with rfl | rfl | rfl
      · exact List.suffix_rfl
      · have hlast : p ++ x = path ++ ['"'] := by
          have hall : (p ++ x) ++ [')'] = (path ++ ['"']) ++ [')'] := by simpa using htext
          exact List.append_cancel_right hall
        have hlast := congrArg List.getLast? hlast
        rw [List.getLast?_append, hx] at hlast
        simp at hlast
      · exact absurd rfl hb
    · exact hsuffix
  have hpath : p ++ x ++ q = path := by
    have hall : (p ++ x ++ q) ++ "\")".toList = path ++ "\")".toList := by simpa using htext
    exact List.append_cancel_right hall
  refine ⟨(verb.lower, p ++ q), verb, hverb, p ++ q, by simp [hp], fun hmem => hquote ?_, ?_, rfl⟩
  · rw [← hpath]
    rcases List.mem_append.1 hmem with hmem | hmem
    · simp [hmem]
    · simp [hmem]
  · rw [← hopening]
    simp [annotationText]

/-- Imports go in where no annotation goes over the end of a line. -/
theorem ImportGap.apart_lines (h : ImportGap u head foot v)
    (hpaths : ∀ path ∈ missing, Consists isPathChar path) (happart : Apart u v) :
    Apart u (gapLines head foot missing ++ v) := by
  by_cases hnil : gapLines head foot missing = []
  · rwa [hnil]
  have hquote := not_mem_gapLines (c := '"') h hpaths (by decide) (by decide)
  have hends : (gapLines head foot missing).getLast? = some '\n' := by
    have hlast := List.getLast?_eq_some_getLast hnil
    rw [hlast, getLast?_of_startsLineAfter (h.lineStart_lines hpaths) _ hlast]
  have hparen := not_mem_gapLines (c := ')') h hpaths (by decide) (by decide)
  generalize gapLines head foot missing = x at hquote hends hparen hnil
  rintro first rest key hu hrest hread
  rcases annotationAt?_append_cases hread with hwithin | ⟨t, behind, ht, htext, hover⟩
  · exact hwithin
  rcases List.append_eq_append_iff.1 htext with ⟨s, rfl, rfl⟩ | ⟨s, rfl, -⟩
  · by_cases hs : s = []
    · subst hs
      rcases hover.suffix_cases ht with hmem | hlast
      · simp [hquote] at hmem
      · rw [List.append_nil] at hlast
        simp [hlast] at hparen
    · -- the annotation goes over the imports, so it did so over their place
      have hstart : rest.getLast? = some '\n' := by
        have hlast := List.getLast?_eq_some_getLast hrest
        rw [← List.getLast?_append_of_ne_nil first hrest, ← hu] at hlast
        rw [List.getLast?_eq_some_getLast hrest,
          getLast?_of_startsLineAfter (h.lineStart (by simp [hs])) _ hlast]
      obtain ⟨other, hother⟩ := hover.exists_without hstart hends hs
      have hread' : annotationAt? (rest ++ (s ++ behind)) = some other :=
        annotationAt?_eq_some_iff.2 ⟨_, behind, by simp, hother⟩
      obtain ⟨part, last, hpart, hkey⟩ :=
        annotationAt?_eq_some_iff.1 (happart first rest other hu hrest hread')
      exact absurd ⟨[], last, by simpa using hpart.symm⟩ (hover.not_within ht hkey)
  · rcases hover.suffix_cases ht with hmem | rfl
    · simp [hmem] at hquote
    · simp at hparen

theorem not_mem_insertImports {c : Char} (hpaths : ∀ path ∈ paths, Consists isPathChar path)
    (hc : isPathChar c = false) (hclause : c ∉ ("import '';\n" : Text)) (h : c ∉ content) :
    c ∉ insertImports content paths := by
  obtain ⟨u, head, foot, v, rfl, hgap⟩ := exists_importGap content
  have hmissing : ∀ path ∈ missingImports (u ++ v) paths, Consists isPathChar path :=
    fun path hpath => hpaths path (mem_missingImports.1 hpath).1
  have hlines := not_mem_gapLines hgap hmissing hc hclause
  rw [List.mem_append, not_or] at h
  rw [hgap.insertImports_eq]
  simp [h, hlines]

/-- No annotation goes over the end of the line behind which imports go in. -/
def HasWholeAnnotations (content : Text) : Prop :=
  ∀ u head foot v, content = u ++ v → ImportGap u head foot v → Apart u v

theorem annotatedKeys_insertImports (hpaths : ∀ path ∈ paths, Consists isPathChar path)
    (h : HasWholeAnnotations content) :
    annotatedKeys (insertImports content paths) = annotatedKeys content := by
  obtain ⟨u, head, foot, v, rfl, hgap⟩ := exists_importGap content
  have hmissing : ∀ path ∈ missingImports (u ++ v) paths, Consists isPathChar path :=
    fun path hpath => hpaths path (mem_missingImports.1 hpath).1
  have happart := h u head foot v rfl hgap
  have hlines := reads_of_not_mem (not_mem_gapLines (c := '@') hgap hmissing (by decide) (by decide))
  unfold annotatedKeys
  rw [hgap.insertImports_eq, annotationsFrom_append_of_apart (hgap.apart_lines hmissing happart),
    hlines, annotationsFrom_append_of_apart happart, List.nil_append]

/-- The place for imports is whole in a text whose annotations have no line breaks. -/
theorem HasWholeAnnotations.of_keys
    (h : ∀ rest ∈ content.tails, ∀ key ∈ annotationAt? rest, '\n' ∉ key.2) :
    HasWholeAnnotations content := by
  rintro u head foot v rfl hgap first rest key hsplit hne hkey
  rcases annotationAt?_append_cases hkey with hthere | ⟨t, behind, ht, hv, hannotation⟩
  · exact hthere
  -- the annotation would go on behind the place, where a line has ended
  have hbreak : '\n' ∈ rest := by
    cases hgap with
    | line _ _ =>
        have hlast := congrArg List.getLast? hsplit
        rw [List.getLast?_append_of_ne_nil _ hne, ← List.append_assoc, ← List.append_assoc,
          List.getLast?_concat] at hlast
        exact List.mem_of_getLast? hlast.symm
    | last _ _ => exact absurd (List.append_eq_nil_iff.1 hv.symm).1 ht
    | top _ => exact absurd (List.append_eq_nil_iff.1 hsplit.symm).2 hne
  have hpath : '\n' ∉ key.2 := by
    refine h (rest ++ v) ((List.mem_tails ..).2 ⟨first, ?_⟩) key hkey
    rw [hsplit, List.append_assoc]
  obtain ⟨verb, hverb, path, -, -, htext, rfl⟩ := hannotation
  have hmem : '\n' ∈ annotationText verb path := htext ▸ List.mem_append_left t hbreak
  have hnot : ∀ verb ∈ annotatedVerbs, '\n' ∉ verb := by decide
  exact absurd (by simpa [annotationText, hnot verb hverb] using hmem) hpath

/-! ## Members behind annotations -/

/-- No quote stands behind the last closing brace. -/
def EndsQuotes (content : Text) : Prop := ∀ p q, content = p ++ '\x7d' :: q → '\x7d' ∉ q → '"' ∉ q

theorem endsQuotes_iff : EndsQuotes content ↔ ∀ rest ∈ content.tails,
    rest.head? = some '\x7d' → '\x7d' ∉ rest.tail → '"' ∉ rest.tail := by
  constructor
  · intro h rest hrest hhead
    obtain ⟨p, rfl⟩ := (List.mem_tails ..).1 hrest
    obtain ⟨q, rfl⟩ := List.head?_eq_some_iff.1 hhead
    exact h p q rfl
  · rintro h p q rfl
    exact h _ ((List.mem_tails ..).2 ⟨p, rfl⟩) rfl

instance : Decidable (EndsQuotes content) := decidable_of_iff _ endsQuotes_iff.symm

theorem EndsQuotes.insertImports (h : EndsQuotes content)
    (hpaths : ∀ path ∈ paths, Consists isPathChar path) : EndsQuotes (insertImports content paths) := by
  obtain ⟨u, head, foot, v, rfl, hgap⟩ := exists_importGap content
  have hmissing : ∀ path ∈ missingImports (u ++ v) paths, Consists isPathChar path :=
    fun path hpath => hpaths path (mem_missingImports.1 hpath).1
  have hbrace := not_mem_gapLines (c := '\x7d') hgap hmissing (by decide) (by decide)
  have hquote := not_mem_gapLines (c := '"') hgap hmissing (by decide) (by decide)
  rw [hgap.insertImports_eq]
  generalize gapLines head foot (missingImports (u ++ v) paths) = x at hbrace hquote
  intro p q htext hlast
  rcases cut_cases htext with ⟨s, hs, rfl, hq⟩ | ⟨t, rfl, ht⟩
  · -- the brace stands in front of the imports
    obtain ⟨c, s, rfl⟩ := List.exists_cons_of_ne_nil hs
    obtain ⟨rfl, rfl⟩ := List.cons_eq_cons.1 hq
    have hlast : '\x7d' ∉ s ++ (x ++ v) := hlast
    simp only [List.mem_append, not_or] at hlast
    have hcontent := h p (s ++ v) (by simp) (by simp [hlast])
    simp only [List.mem_append, not_or] at hcontent
    show '"' ∉ s ++ (x ++ v)
    simp [hcontent, hquote]
  · rcases cut_cases ht with ⟨s, hs, rfl, hq⟩ | ⟨t, rfl, rfl⟩
    · obtain ⟨c, s, rfl⟩ := List.exists_cons_of_ne_nil hs
      obtain ⟨rfl, -⟩ := List.cons_eq_cons.1 hq
      simp at hbrace
    · exact h (u ++ t) q (by simp) hlast

theorem annotatedKeys_eq_nil (h : '"' ∉ text) : annotatedKeys text = [] := by
  refine List.eq_nil_iff_forall_not_mem.2 fun key hkey => ?_
  obtain ⟨part, hpart, hannotation⟩ := exists_of_mem_annotationsFrom hkey
  have hcount := hannotation.count_quotes
  rw [List.count_eq_zero.2 fun hmem => h (hpart.mem hmem)] at hcount
  cases hcount

/-- A service file that is extended and read keeps the keys of its annotations. -/
theorem subset_annotatedKeys_insert (hfeature : feature.Plain)
    (hplain : ∀ endpoint ∈ endpoints, endpoint.Plain) (hreturn : '\r' ∉ content)
    (hwhole : HasWholeAnnotations content) (hquotes : EndsQuotes content)
    (h : ClassFile.service.insert feature content endpoints = .ok result) :
    annotatedKeys content ⊆ annotatedKeys (universalNewlines result) := by
  have hpaths : ∀ path ∈ feature.modelImports endpoints, Consists isPathChar path :=
    fun path hpath => (mem_modelImports feature hplain path hpath).consists hfeature
  rw [ClassFile.insert_eq] at h
  obtain ⟨⟨p, q⟩, hsplit, rfl⟩ := map_eq_ok.1 h
  obtain ⟨htext, rest, rfl, hrest⟩ := (ClassFile.splitEnd_of_ne (by decide)).1 hsplit
  have hquote : '"' ∉ '\x7d' :: rest := by
    simpa using hquotes.insertImports hpaths p rest htext hrest
  have hp : '\r' ∉ p := fun hmem => not_mem_insertImports hpaths (by decide) (by decide) hreturn
    (by rw [htext]; exact List.mem_append_left _ hmem)
  have hkeys := annotatedKeys_insertImports hpaths hwhole
  rw [htext, annotatedKeys, annotationsFrom_append_of_apart (.of_not_mem hquote (by simp)),
    show annotationsFrom 0 ('\x7d' :: rest) = [] from annotatedKeys_eq_nil hquote,
    List.append_nil] at hkeys
  rw [← hkeys, universalNewlines_append_of_not_mem hp]
  exact (annotatedKeys_append p _).subset

end Scaffold
