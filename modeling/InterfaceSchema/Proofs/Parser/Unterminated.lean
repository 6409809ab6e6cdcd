import InterfaceSchema.Proofs.Parser.Viable
import InterfaceSchema.Proofs.Parser.Writing
import InterfaceSchema.Proofs.Source.Coverage
import InterfaceSchema.Proofs.Source.Width

namespace InterfaceSchema

namespace Parser

theorem run_append_endOfFile {last : Token} (hlast : last.kind = .endOfFile) (other : Token)
    (p : Parser) (reported : List Event) (ts : List Token) :
    p.run other reported (ts ++ [last]) = p.run last reported ts := by
  induction ts generalizing p reported with
  | nil => simp [run, hlast]
  | cons t ts ih =>
    rw [List.cons_append, run, run]
    split
    · rfl
    · split
      · rfl
      · exact ih _ _

theorem exists_stop_of_outcome {p : Parser} {ts : List Token} {error : ParseError}
    (hts : ∀ t ∈ ts, t.kind ≠ .endOfFile) (h : p.outcome ts = .error error) :
    ∃ before q, p.Reaches before q ∧
      ((∃ t, q.Stops t error ∧ t.kind ≠ .endOfFile) ∨ q.settle = .error error) := by
  induction ts generalizing p with
  | nil => exact ⟨[], p, .refl p, .inr h⟩
  | cons t ts ih =>
    obtain ⟨ht, hrest⟩ := List.forall_mem_cons.mp hts
    rw [outcome] at h
    cases hstep : p.step t with
    | error other =>
      obtain rfl : other = error := by simpa [hstep] using h
      exact ⟨[], p, .refl p, .inl ⟨t, .inside ht hstep, ht⟩⟩
    | ok next =>
      rw [hstep] at h
      obtain ⟨before, q, hreaches, hstop⟩ := ih hrest h
      exact ⟨t :: before, q, .step hstep hreaches, hstop⟩

theorem kind_of_outcome_error {ts : List Token} {error : ParseError}
    (hts : ∀ t ∈ ts, t.kind ≠ .endOfFile) (h : Parser.initial.outcome ts = .error error) :
    error.token.kind ≠ .endOfFile := by
  obtain ⟨before, q, hreaches, hstop⟩ := exists_stop_of_outcome hts h
  have hrepeats : q.Repeats error.token → error.token.kind ≠ .endOfFile := by
    intro hrepeats
    cases (hreaches.follows .initial).repeatsRpc hrepeats with
    | intro _ _ hstarts =>
      cases hstarts with
      | intro _ hn _ => rw [hn]; decide
  rcases hstop with ⟨t, hstops, ht⟩ | hsettle
  · rcases hstops.token with heq | hrep
    · rw [heq]; exact ht
    · exact hrepeats hrep
  · exact hrepeats (.of_settle_error hsettle)

theorem finishAt_cases (s : Scopes) (place : Place) :
    (∃ root, ∀ t, finishAt s place t = .ok root) ∨
      ∀ t, finishAt s place t = .error ⟨place.endFault, t⟩ := by
  obtain ⟨inner, outer⟩ := s
  cases place with
  | body =>
    cases outer with
    | nil => exact .inl ⟨inner, fun _ => rfl⟩
    | cons => exact .inr fun _ => rfl
  | _ => exact .inr fun _ => rfl

end Parser

theorem kind_endOfTokens (tokens : List Token) : (endOfTokens tokens).kind = .endOfFile := by
  unfold endOfTokens
  split <;> rfl

theorem parseTokens_append_endOfTokens (tokens : List Token) :
    parseTokens (tokens ++ [endOfTokens tokens]) = parseTokens tokens :=
  Parser.run_append_endOfFile (kind_endOfTokens tokens) _ _ _ tokens

-- The end of file has no influence, or it is where the parser fails.
theorem parseTokens_value_of_ends {ts : List Token} (hts : ∀ t ∈ ts, t.kind ≠ .endOfFile)
    {e e' : Token} (he : e.kind = .endOfFile) (he' : e'.kind = .endOfFile) :
    ((parseTokens (ts ++ [e])).value = (parseTokens (ts ++ [e'])).value ∧
      ∀ error, (parseTokens (ts ++ [e])).value = .error error → error.token.kind ≠ .endOfFile) ∨
    ∃ fault, (parseTokens (ts ++ [e])).value = .error ⟨fault, e⟩ ∧
      (parseTokens (ts ++ [e'])).value = .error ⟨fault, e'⟩ := by
  rw [parseTokens, parseTokens, Parser.run_value he hts, Parser.run_value he' hts]
  cases houtcome : Parser.initial.outcome ts with
  | error error =>
    refine .inl ⟨rfl, fun other hother => ?_⟩
    obtain rfl := Except.error.inj hother
    exact Parser.kind_of_outcome_error hts houtcome
  | ok result =>
    obtain ⟨s, place⟩ := result
    rcases Parser.finishAt_cases s place with ⟨root, hroot⟩ | hfault
    · refine .inl ⟨(hroot e).trans (hroot e').symm, fun error herror => ?_⟩
      cases (hroot e).symm.trans herror
    · exact .inr ⟨_, hfault e, hfault e'⟩

def parseUnterminated (text : String) : Logged (Except Diagnostic Namespace) :=
  parseLexed (tokenize (TokenKind.layout ++ [.endOfFile]) text)

theorem Cut.filter_unterminated {cs : List Char} {ls : List Lexeme} (h : Cut cs ls)
    (p : Position) :
    ((tokensFrom p ls).filter fun t =>
      !(TokenKind.layout ++ [TokenKind.endOfFile]).contains t.kind) = significant p ls := by
  have hsplit : (fun t : Token => !(TokenKind.layout ++ [TokenKind.endOfFile]).contains t.kind) =
      fun t => !TokenKind.layout.contains t.kind && decide (t.kind ≠ .endOfFile) := by
    funext t
    simp
  rw [hsplit, ← List.filter_filter, h.filter_tokensFrom, significant]

theorem parseUnterminated_value_of_cut {text : String} {ls : List Lexeme}
    (h : Cut text.toList ls) :
    (parseUnterminated text).value = (parseTokens (significant .origin ls ++
      [endOfTokens (significant .origin ls)])).value.mapError .ofParseError := by
  rw [parseUnterminated, tokenize_of_cut _ h, h.filter_unterminated,
    parseTokens_append_endOfTokens]
  rfl

theorem ParseError.near_ne {e : ParseError} (h : e.token.kind ≠ .endOfFile) :
    e.near ≠ "end of file" := by
  rw [near, if_neg h]
  intro hquote
  have hfirst := congrArg (fun s => s.toList.head?) hquote
  simp [Json.quote] at hfirst

theorem Diagnostic.ofParseError_at_end (fault : ParseFault) {e : Token}
    (he : e.kind = .endOfFile) :
    ofParseError ⟨fault, e⟩ = .grammatical fault.message "end of file" e.pos := by
  rw [ofParseError, ParseError.near, if_pos he]

theorem near_of_mapError {result : Except ParseError Namespace} {message near : String}
    {p : Position}
    (h : result.mapError Diagnostic.ofParseError = .error (.grammatical message near p)) :
    ∃ error, result = .error error ∧ error.near = near := by
  cases result with
  | error error =>
    obtain ⟨-, hnear, -⟩ := Diagnostic.grammatical.inj (Except.error.inj h)
    exact ⟨error, rfl, hnear⟩
  | ok root => cases h

inductive SameButPlace : Except Diagnostic Namespace → Except Diagnostic Namespace → Prop
  | schema (root : Namespace) : SameButPlace (.ok root) (.ok root)
  | failure (message near : String) {p q : Position} :
      p.byte = q.byte →
      SameButPlace (.error (.grammatical message near p)) (.error (.grammatical message near q))

theorem SameButPlace.refl (result : Except ParseError Namespace) :
    SameButPlace (result.mapError .ofParseError) (result.mapError .ofParseError) := by
  cases result with
  | error error => exact .failure _ _ rfl
  | ok root => exact .schema root

def Token.IsLastOf (t : Token) (unmasked : List Token) : Prop :=
  ∃ front e, unmasked = front ++ [t, e]

theorem isLastOf_append (front : List Token) (t u e : Token) :
    u.IsLastOf (front ++ [t, e]) ↔ u = t := by
  constructor
  · rintro ⟨others, last, h⟩
    have hlast := (List.append_inj' h rfl).2
    exact (List.cons.inj hlast).1.symm
  · rintro rfl
    exact ⟨front, e, rfl⟩

theorem not_isLastOf_nil (p : Position) (t : Token) : ¬ t.IsLastOf (tokensFrom p []) := by
  rintro ⟨front, e, h⟩
  have hlength := congrArg List.length h
  simp [tokensFrom, lexemeTokens] at hlength

theorem isLastOf_concat (p : Position) (before : List Lexeme) (l : Lexeme) (t : Token) :
    t.IsLastOf (tokensFrom p (before ++ [l])) ↔ t = l.token (endOfLexemes p before) := by
  have htokens : tokensFrom p (before ++ [l]) = lexemeTokens p before ++
      [l.token (endOfLexemes p before), ⟨.endOfFile, "", endOfLexemes p (before ++ [l]), 0⟩] := by
    rw [tokensFrom, lexemeTokens_append, List.append_assoc]
    rfl
  rw [htokens, isLastOf_append]

def Token.IsPlainIn (t : Token) (text : String) : Prop :=
  ∀ c ∈ unbroken .code (t.sourceText text).toList, c.utf8Size = 1 ∧ c ≠ '\n'

theorem endOfTokens_concat (ts : List Token) (t : Token) :
    endOfTokens (ts ++ [t]) = ⟨.endOfFile, "", t.pos.behind t.len, 0⟩ := by
  simp [endOfTokens, Position.behind]

theorem endOfTokens_significant {text : String} {ls : List Lexeme} (h : Cut text.toList ls)
    (hend : ∀ t : Token, t.IsLastOf (tokensFrom .origin ls) → t.kind ∉ TokenKind.layout) :
    (endOfTokens (significant .origin ls)).pos.byte = (endOfLexemes .origin ls).byte ∧
      ((endOfTokens (significant .origin ls)).pos = endOfLexemes .origin ls ↔
        ∀ t : Token, t.IsLastOf (tokensFrom .origin ls) → t.IsPlainIn text) := by
  rcases List.eq_nil_or_concat' ls with rfl | ⟨before, l, rfl⟩
  · exact ⟨rfl, fun _ t ht => absurd ht (not_isLastOf_nil _ t), fun _ => rfl⟩
  · simp only [isLastOf_concat, forall_eq] at hend ⊢
    have hl : l.Valid := h.valid_of_mem l (by simp)
    have hlast : significant (endOfLexemes .origin before) [l] =
        [l.token (endOfLexemes .origin before)] :=
      List.filter_eq_self.mpr (by simpa [lexemeTokens] using hend)
    have htext : text.toList = before.flatMap Lexeme.source ++ (l.source ++ []) := by
      simpa using h.flatMap_source.symm
    have hbyte : (endOfLexemes .origin before).byte =
        byteLength (before.flatMap Lexeme.source) := by
      rw [byte_endOfLexemes, Position.origin, Nat.zero_add]
    have hadvance : endOfLexemes .origin (before ++ [l]) =
        (endOfLexemes .origin before).advance l.source := by
      rw [endOfLexemes, List.foldl_append]
      rfl
    rw [significant_append, hlast, endOfTokens_concat, hadvance, Token.IsPlainIn,
      Lexeme.sourceText_token htext hbyte, String.toList_ofList, ← hl.advance_eq_behind_iff hend]
    exact ⟨(Position.byte_advance _ _).symm, eq_comm⟩

theorem parseUnterminated_eq_iff {text : String} {unmasked : List Token}
    (h : tokenize [] text = .ok unmasked)
    (hend : ∀ t : Token, t.IsLastOf unmasked → t.kind ∉ TokenKind.layout) :
    SameButPlace (parseSource text).value (parseUnterminated text).value ∧
      ((parseUnterminated text).value = (parseSource text).value ↔
        ∀ message p, (parseSource text).value = .error (.grammatical message "end of file" p) →
          ∀ t : Token, t.IsLastOf unmasked → t.IsPlainIn text) := by
  obtain ⟨ls, hcut⟩ := cut_of_tokenize h
  obtain rfl : tokensFrom .origin ls = unmasked := by
    simpa using (tokenize_of_cut [] hcut).symm.trans h
  obtain ⟨hbyte, hplace⟩ := endOfTokens_significant hcut hend
  rw [parseSource_value_of_cut hcut, parseUnterminated_value_of_cut hcut, ← hplace]
  have hkinds := kind_ne_endOfFile hcut .origin
  have hends := @parseTokens_value_of_ends _ hkinds
    ⟨.endOfFile, "", endOfLexemes .origin ls, 0⟩ _ rfl (kind_endOfTokens (significant .origin ls))
  rcases hends with ⟨hsame, hkind⟩ | ⟨fault, hwhole, hown⟩
  · rw [← hsame]
    refine ⟨.refl _, fun _ message p hp => ?_, fun _ => rfl⟩
    obtain ⟨error, herror, hnear⟩ := near_of_mapError hp
    exact absurd hnear (ParseError.near_ne (hkind error herror))
  · rw [hwhole, hown, Except.mapError, Except.mapError, Diagnostic.ofParseError_at_end fault rfl,
      Diagnostic.ofParseError_at_end fault (kind_endOfTokens _)]
    refine ⟨.failure _ _ hbyte.symm, fun hsame message p _ => ?_, fun hright => ?_⟩
    · exact (Diagnostic.grammatical.inj (Except.error.inj hsame)).2.2
    · rw [hright _ _ rfl]

theorem end_behind_escaped_lineFeed :
    ∃ unmasked, tokenize [] "namespace n\x7boption a \"\\\n\"" = .ok unmasked ∧
      (∀ t : Token, t.IsLastOf unmasked → t.kind ∉ TokenKind.layout) ∧
      (∀ t : Token, t.IsLastOf unmasked → t.IsPlainIn "namespace n\x7boption a \"\\\n\"") ∧
      (parseUnterminated "namespace n\x7boption a \"\\\n\"").value =
        (parseSource "namespace n\x7boption a \"\\\n\"").value := by
  have htokens : tokenize [] "namespace n\x7boption a \"\\\n\"" = .ok
      ([⟨.keyword, "namespace", ⟨0, 0, 0⟩, 9⟩, ⟨.space, " ", ⟨9, 0, 9⟩, 1⟩,
        ⟨.identifier, "n", ⟨10, 0, 10⟩, 1⟩, ⟨.blockStart, "\x7b", ⟨11, 0, 11⟩, 1⟩,
        ⟨.keyword, "option", ⟨12, 0, 12⟩, 6⟩, ⟨.space, " ", ⟨18, 0, 18⟩, 1⟩,
        ⟨.identifier, "a", ⟨19, 0, 19⟩, 1⟩, ⟨.space, " ", ⟨20, 0, 20⟩, 1⟩] ++
       [⟨.stringValue, "\n", ⟨21, 0, 21⟩, 4⟩, ⟨.endOfFile, "", ⟨25, 0, 25⟩, 0⟩]) := by
    decide +kernel
  have hsource : unbroken .code (Token.sourceText ⟨.stringValue, "\n", ⟨21, 0, 21⟩, 4⟩
      "namespace n\x7boption a \"\\\n\"").toList = ['"', '\\', ' ', '"'] := by decide +kernel
  have hplain : Token.IsPlainIn ⟨.stringValue, "\n", ⟨21, 0, 21⟩, 4⟩
      "namespace n\x7boption a \"\\\n\"" := by
    rw [Token.IsPlainIn, hsource]
    simp [Char.utf8Size]
  have hiff := parseUnterminated_eq_iff htokens
  refine ⟨_, htokens, ?_⟩
  simp only [isLastOf_append, forall_eq] at hiff ⊢
  exact ⟨by decide, hplain, (hiff (by decide)).2.mpr fun _ _ _ => hplain⟩

theorem column_behind_wide_name :
    ∃ unmasked, tokenize [] "enum é" = .ok unmasked ∧
      (∀ t : Token, t.IsLastOf unmasked → t.kind ∉ TokenKind.layout) ∧
      (parseUnterminated "enum é").value ≠ (parseSource "enum é").value := by
  have htokens : tokenize [] "enum é" = .ok
      ([⟨.keyword, "enum", ⟨0, 0, 0⟩, 4⟩, ⟨.space, " ", ⟨4, 0, 4⟩, 1⟩] ++
       [⟨.identifier, "é", ⟨5, 0, 5⟩, 2⟩, ⟨.endOfFile, "", ⟨7, 0, 6⟩, 0⟩]) := by decide +kernel
  have hwhole : tokenize TokenKind.layout "enum é" = .ok
      [⟨.keyword, "enum", ⟨0, 0, 0⟩, 4⟩, ⟨.identifier, "é", ⟨5, 0, 5⟩, 2⟩,
       ⟨.endOfFile, "", ⟨7, 0, 6⟩, 0⟩] := by decide +kernel
  have hown : tokenize (TokenKind.layout ++ [.endOfFile]) "enum é" = .ok
      [⟨.keyword, "enum", ⟨0, 0, 0⟩, 4⟩, ⟨.identifier, "é", ⟨5, 0, 5⟩, 2⟩] := by decide +kernel
  refine ⟨_, htokens, fun t ht => (isLastOf_append _ _ t _).mp ht ▸ (by decide), fun hsame => ?_⟩
  rw [parseUnterminated, parseSource, hwhole, hown] at hsame
  have hplace : Position.mk 7 0 7 = ⟨7, 0, 6⟩ :=
    (Diagnostic.grammatical.inj (Except.error.inj hsame)).2.2
  cases hplace

end InterfaceSchema