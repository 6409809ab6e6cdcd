import InterfaceSchema.Proofs.Compilation.Meaning
import InterfaceSchema.Proofs.Schema.Monoid

namespace InterfaceSchema

inductive Refused (text : String) : Diagnostic → Prop
  | lexical {error : LexError} :
      tokenize TokenKind.layout text = .error error → Refused text (.ofLexError error)
  | grammatical {tokens : List Token} {error : ParseError} :
      tokenize TokenKind.layout text = .ok tokens → (parseTokens tokens).value = .error error →
      Refused text (.ofParseError error)

theorem refused_iff {text : String} {cause : Diagnostic} :
    Refused text cause ↔ (parseSource text).value = .error cause := by
  constructor
  · intro h
    cases h with
    | lexical htokens => simp [parseSource, htokens, parseLexed, Logged.silent]
    | grammatical htokens herror =>
      simp [parseSource, htokens, parseLexed, Logged.map, herror, Except.mapError]
  · intro h
    cases htokens : tokenize TokenKind.layout text with
    | error error =>
      obtain rfl : Diagnostic.ofLexError error = cause := by
        simpa [parseSource, htokens, parseLexed, Logged.silent] using h
      exact .lexical htokens
    | ok tokens =>
      rw [parseSource, htokens] at h
      cases hparsed : (parseTokens tokens).value with
      | ok ns => simp [parseLexed, Logged.map, hparsed, Except.mapError] at h
      | error error =>
        obtain rfl : Diagnostic.ofParseError error = cause := by
          simpa [parseLexed, Logged.map, hparsed, Except.mapError] using h
        exact .grammatical htokens hparsed

namespace Compilation

variable {c : Compilation} {origin text : String}

theorem value_attempt_of_ok {root : Namespace} (h : (parseSource text).value = .ok root) :
    (c.attempt origin text).value = (.ok (), ⟨c.root.merge root, c.sources ++ [origin]⟩) := by
  rw [attempt, Logged.map, value_add h c]

theorem value_attempt_of_error {cause : Diagnostic}
    (h : (parseSource text).value = .error cause) :
    (c.attempt origin text).value = (.error (.inSource origin cause), c) := by
  rw [attempt, Logged.map, value_add_of_error h c]

theorem value_attempt_eq_error_iff {error : Diagnostic} {next : Compilation} :
    (c.attempt origin text).value = (.error error, next) ↔
      ∃ cause, Refused text cause ∧ error = .inSource origin cause ∧ next = c := by
  constructor
  · intro h
    cases hparsed : (parseSource text).value with
    | ok root =>
      rw [value_attempt_of_ok hparsed] at h
      cases h
    | error cause =>
      rw [value_attempt_of_error hparsed] at h
      cases h
      exact ⟨cause, refused_iff.mpr hparsed, rfl, rfl⟩
  · rintro ⟨cause, hcause, rfl, rfl⟩
    exact value_attempt_of_error (refused_iff.mp hcause)

def attemptAll (c : Compilation) :
    List (String × String) → List (Except Diagnostic Unit) × Compilation
  | [] => ([], c)
  | (origin, text) :: rest =>
      let called := (c.attempt origin text).value
      let later := called.2.attemptAll rest
      (called.1 :: later.1, later.2)

def accepted (c : Compilation) (calls : List (String × String)) : List (String × String) :=
  (calls.zip (c.attemptAll calls).1).filterMap fun
    | (call, .ok ()) => some call
    | (_, .error _) => none

-- Which calls succeed, and what they add, does not depend on the compilation that takes them.
theorem exists_parsed_attemptAll (calls : List (String × String)) :
    ∃ sources roots, Parsed sources roots ∧ ∀ c : Compilation,
      c.accepted calls = sources ∧
        (c.attemptAll calls).2 =
          ⟨roots.foldl Namespace.merge c.root, c.sources ++ sources.map Prod.fst⟩ := by
  induction calls with
  | nil => exact ⟨[], [], .nil, fun c => ⟨rfl, by simp [attemptAll]⟩⟩
  | cons call calls ih =>
    obtain ⟨origin, text⟩ := call
    obtain ⟨sources, roots, hparsed, hrun⟩ := ih
    cases hcall : (parseSource text).value with
    | error cause =>
      refine ⟨sources, roots, hparsed, fun c => ?_⟩
      obtain ⟨haccepted, hlast⟩ := hrun c
      rw [accepted] at haccepted
      simp [accepted, attemptAll, value_attempt_of_error hcall, haccepted, hlast]
    | ok root =>
      refine ⟨(origin, text) :: sources, root :: roots, .cons hcall hparsed, fun c => ?_⟩
      obtain ⟨haccepted, hlast⟩ := hrun ⟨c.root.merge root, c.sources ++ [origin]⟩
      rw [accepted] at haccepted
      simp [accepted, attemptAll, value_attempt_of_ok hcall, haccepted, hlast]

end Compilation

theorem Parsed.foldl_blank {sources : List (String × String)} {roots : List Namespace}
    (h : Parsed sources roots) (hne : sources ≠ []) :
    roots.foldl Namespace.merge .blank = roots.foldl Namespace.merge .root := by
  have hindexed := fun root hroot => (h.sound root hroot).wellFormed.here
  have hname := h.name_eq
  cases h with
  | nil => exact absurd rfl hne
  | @cons source root sources roots _ _ =>
    have hblank : Namespace.blank.merge root = root :=
      Namespace.blank_merge (hindexed root List.mem_cons_self)
    have hroot : Namespace.root.merge root = root :=
      Namespace.ofName_merge (hindexed root List.mem_cons_self)
        (by rw [hname root List.mem_cons_self, Namespace.mergedName_self])
    rw [List.foldl_cons, List.foldl_cons, hblank, hroot]

namespace Compilation

theorem failures_leave_no_trace (start : Compilation) (calls : List (String × String)) :
    (∀ (c next : Compilation) (origin text : String) (error : Diagnostic),
      (c.attempt origin text).value = (.error error, next) ↔
        ∃ cause, Refused text cause ∧ error = .inSource origin cause ∧ next = c) ∧
    ((start.attemptAll calls).2.sources =
        start.sources ++ (start.accepted calls).map Prod.fst ∧
      (start.addAll (start.accepted calls)).value = .ok (start.attemptAll calls).2) ∧
    (compileSources (initial.accepted calls)).value = .ok (initial.attemptAll calls).2.root ∧
    (initial.accepted calls ≠ [] →
      (blank.attemptAll calls).2.root = (initial.attemptAll calls).2.root) := by
  obtain ⟨sources, roots, hparsed, hrun⟩ := exists_parsed_attemptAll calls
  refine ⟨fun c next origin text error => value_attempt_eq_error_iff, ⟨?_, ?_⟩, ?_, ?_⟩
  · rw [(hrun start).1, (hrun start).2]
  · rw [(hrun start).1, (hrun start).2]
    exact value_addAll_of_parsed hparsed start
  · rw [(hrun initial).1, (hrun initial).2]
    exact compileSources_of_parsed hparsed
  · intro hne
    rw [(hrun initial).1] at hne
    rw [(hrun blank).2, (hrun initial).2]
    exact hparsed.foldl_blank hne

theorem no_trace_of_unterminated_string :
    (initial.attemptAll
        [("a", "enum E\x7bx\x7d"), ("b", "\""), ("c", "enum E\x7by\x7d")]).2.sources = ["a", "c"] ∧
      (compileSources [("a", "enum E\x7bx\x7d"), ("c", "enum E\x7by\x7d")]).value =
        .ok (initial.attemptAll
          [("a", "enum E\x7bx\x7d"), ("b", "\""), ("c", "enum E\x7by\x7d")]).2.root ∧
      (blank.attemptAll
          [("a", "enum E\x7bx\x7d"), ("b", "\""), ("c", "enum E\x7by\x7d")]).2.root =
        (initial.attemptAll
          [("a", "enum E\x7bx\x7d"), ("b", "\""), ("c", "enum E\x7by\x7d")]).2.root := by
  have ha : (parseSource "enum E\x7bx\x7d").value =
      .ok (Namespace.root.declareAll [.enum "E" ["x"]]) := by decide +kernel
  have hb : tokenize TokenKind.layout "\"" = .error ⟨.unterminatedString, ⟨1, 0, 1⟩⟩ := by
    decide +kernel
  have hc : (parseSource "enum E\x7by\x7d").value =
      .ok (Namespace.root.declareAll [.enum "E" ["y"]]) := by decide +kernel
  have haccepted : initial.accepted
      [("a", "enum E\x7bx\x7d"), ("b", "\""), ("c", "enum E\x7by\x7d")] =
        [("a", "enum E\x7bx\x7d"), ("c", "enum E\x7by\x7d")] := by
    simp [accepted, attemptAll, value_attempt_of_ok ha, value_attempt_of_ok hc,
      value_attempt_of_error (refused_iff.mp (.lexical hb))]
  obtain ⟨-, ⟨hsources, -⟩, hcompiled, hsame⟩ := failures_leave_no_trace initial
    [("a", "enum E\x7bx\x7d"), ("b", "\""), ("c", "enum E\x7by\x7d")]
  rw [haccepted] at hsources hcompiled hsame
  exact ⟨hsources, hcompiled, hsame (by simp)⟩

end Compilation

end InterfaceSchema
