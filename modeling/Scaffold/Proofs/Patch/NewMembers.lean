import Scaffold.Proofs.Patch.Additions
import Scaffold.Proofs.Patch.Completion

/-!
# New members in rendered files

A rendered file that has no member of a further endpoint takes it in (`SourceFile.exists_takes`): the
extension finds its places, puts in the member with the imports it needs, and changes nothing else.
Then the file is the one that is rendered for all endpoints. Only a service file may differ from that
one in its imports, because it has the paths of its endpoints, in which imports may seem to stand.
-/

namespace Scaffold

variable {feature : Feature} {endpoint : Endpoint} {known endpoints : List Endpoint}
  {content result : Text}

/-- The file that was rendered for the known endpoints has taken in one more: the member has come in
with the imports it needs, and nothing else has changed. -/
structure SourceFile.Takes (source : SourceFile) (feature : Feature) (known : List Endpoint)
    (endpoint : Endpoint) (result : Text) : Prop where
  lacked : hasMember (source.part feature known).full (source.memberName endpoint) = false
  has : hasMember result (source.memberName endpoint) = true
  adds : ∃ added,
    added.Perm ((source.imports feature (source.part feature known).full [endpoint]).map importClause ::
      (source.renderings feature (source.part feature known).full).map (· endpoint)) ∧
    Adds added (source.part feature known).full result
  rendered : (source = .ofClass .service → ∀ other ∈ known, other.Quiet) →
    result = (source.part feature (known ++ [endpoint])).full

/-- Where there is a brace, members go in in front of the last one. -/
theorem ClassFile.exists_insert {file : ClassFile} (hfile : file ≠ .useCases)
    (hbrace : '\x7d' ∈ content) (feature : Feature) (endpoint : Endpoint) :
    ∃ result, file.insert feature content [endpoint] = .ok result ∧
      Mentions result endpoint.methodName := by
  have hbrace := infix_insertImports (by decide) ((List.singleton_infix_iff _ _).2 hbrace)
    (feature.modelImports [endpoint])
  obtain ⟨p, q, hsplit⟩ : ∃ p q, file.splitEnd feature
      (insertImports content (feature.modelImports [endpoint])) = .ok (p, q) := by
    cases hcut : Text.splitLast? "\x7d" (insertImports content (feature.modelImports [endpoint])) with
    | none => exact absurd hbrace ((Text.splitLast?_eq_none_iff (by decide)).1 hcut)
    | some parts =>
        exact ⟨parts.1, parts.2, toOption_eq_some_iff.1 (by rw [splitEnd_toOption hfile, hcut])⟩
  refine ⟨p ++ (memberBlock "\n\n" [file.member feature endpoint] ++ q), ?_, ?_⟩
  · rw [ClassFile.insert_eq, hsplit]
    rfl
  · have hmember := infix_memberBlock (List.mem_singleton_self (file.member feature endpoint)) "\n\n"
    exact (file.mentions_member feature endpoint).of_part (hmember.trans ⟨p, q, by simp⟩)

namespace SourceFile

variable {source : SourceFile}

theorem fresh_of_inStyle (h : source.inStyle content = true) (feature : Feature)
    (endpoints : List Endpoint) :
    source.fresh feature content endpoints = lacking content (source.memberName ·) endpoints := by
  cases source with
  | ofClass file => exact fresh_ofClass file
  | event => exact fresh_event_of_unions h
  | state => exact fresh_state_of_unions h
  | bloc =>
      rw [fresh_bloc, ofContent_of_handsOnCases h]
      rfl

/-- A rendered file takes in an endpoint whose member it does not have. -/
theorem exists_takes (source : SourceFile) (hfeature : feature.Plain)
    (hknown : ∀ other ∈ known, other.Plain ∧ other.methodName ≠ []) (hne : known ≠ [])
    (hplain : endpoint.Plain) (hname : endpoint.methodName ≠ [])
    (hlacks : hasMember (source.part feature known).full (source.memberName endpoint) = false) :
    ∃ result, (source.part feature [endpoint]).extend (source.part feature known).full = .ok result ∧
      source.Takes feature known endpoint result := by
  have hone : ∀ other ∈ [endpoint], other.Plain := List.forall_mem_singleton.2 hplain
  have hstyle := source.inStyle_full feature hne
  have hlacking : lacking (source.part feature known).full (source.memberName ·) [endpoint] =
      [endpoint] := by
    simp [lacking, hlacks]
  have hinsert : ∃ result, source.insert feature (source.part feature known).full [endpoint] =
        .ok result ∧ Mentions result (source.memberName endpoint) ∧
      ((source = .ofClass .service → ∀ other ∈ known, other.Quiet) →
        result = (source.part feature (known ++ [endpoint])).full) := by
    by_cases hquiet : source = .ofClass .service → ∀ other ∈ known, other.Quiet
    · refine ⟨_, source.insert_full hfeature (fun other hmem => (hknown other hmem).1) hone hquiet
        (fun other hmem => (hknown other hmem).2) hne (List.cons_ne_nil _ _), ?_, fun _ => rfl⟩
      exact source.mentions_full feature (List.mem_append_right _ (List.mem_singleton_self endpoint))
    · obtain ⟨rfl, -⟩ := Classical.not_imp.1 hquiet
      have hbrace : '\x7d' ∈ ClassFile.service.render feature known := by
        rw [ClassFile.render_eq]
        simp
      obtain ⟨result, hresult, hmentions⟩ :=
        ClassFile.exists_insert (show ClassFile.service ≠ .useCases from nofun) hbrace feature endpoint
      exact ⟨result, hresult, hmentions, fun h => absurd h hquiet⟩
  obtain ⟨result, hresult, hmentions, hrendered⟩ := hinsert
  have hextend : (source.part feature [endpoint]).extend (source.part feature known).full =
      .ok result := by
    rw [extend_of_inStyle hstyle, hlacking, completeWith_of_ne_nil (List.cons_ne_nil _ _), hresult]
  obtain ⟨added, hperm, hadds⟩ := exists_adds hfeature hone hextend
  rw [additions, fresh_of_inStyle hstyle, hlacking] at hperm
  refine ⟨result, hextend, hlacks, hmentions.hasMember (source.isWord_memberName hplain hname),
    ⟨added, by simpa using hperm, hadds⟩, hrendered⟩

end SourceFile

end Scaffold
