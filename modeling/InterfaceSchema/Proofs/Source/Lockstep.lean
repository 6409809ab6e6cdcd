import InterfaceSchema.Proofs.Source.Scanning

namespace InterfaceSchema

namespace Scanner

theorem keep_filter (ignored : List TokenKind) (t : Token) (tokens : List Token) :
    keep ignored t (tokens.filter fun t => !ignored.contains t.kind) =
      (keep [] t tokens).filter fun t => !ignored.contains t.kind := by
  by_cases h : t.kind ∈ ignored <;> simp [keep, h]

theorem run_filter (ignored : List TokenKind) (s : Scanner) (tokens : List Token) :
    run ignored s (tokens.filter fun t => !ignored.contains t.kind) =
      (run [] s tokens).map (List.filter fun t => !ignored.contains t.kind) := by
  induction s, tokens using run_induction [] with
  | pass s tokens next hstep ih => rw [run_of_step_none ignored _ hstep, ih]
  | emit s tokens token next hstep ih =>
    rw [run_of_emits ignored _ ⟨s, .refl, hstep⟩, keep_filter, ih]
  | finish s tokens endOfFile hstep =>
    rw [run_of_finished ignored _ hstep, keep_filter, ← List.filter_reverse]
    rfl
  | fail s tokens error hstep =>
    rw [run_of_fails ignored _ ⟨s, .refl, hstep⟩]
    rfl

end Scanner

theorem tokenize_eq_filter (ignored : List TokenKind) (text : String) :
    tokenize ignored text =
      (tokenize [] text).map (List.filter fun t => !ignored.contains t.kind) :=
  Scanner.run_filter ignored (.ofText text) []

def Position.below (p q : Position) : Position :=
  ⟨q.byte + (p.byte + 1), q.line + (p.line + 1), q.col⟩

namespace Position

variable (p q : Position)

@[simp]
theorem below_past (c : Char) : (p.below q).past c = p.below (q.past c) := by
  simp only [below, past, Nat.add_right_comm]

@[simp]
theorem below_nextLine : (p.below q).nextLine = p.below q.nextLine := by
  simp only [below, nextLine, Nat.add_right_comm]

end Position

def Token.below (p : Position) (t : Token) : Token :=
  { t with pos := p.below t.pos }

def LexError.below (p : Position) (e : LexError) : LexError :=
  { e with pos := p.below e.pos }

def Scanner.below (p : Position) (s : Scanner) : Scanner :=
  { s with here := p.below s.here, start := p.below s.start }

def ScanStep.below (p : Position) : ScanStep → ScanStep
  | .advance token next => .advance (token.map (·.below p)) (next.below p)
  | .finished endOfFile => .finished (endOfFile.below p)
  | .failed error => .failed (error.below p)

namespace Scanner

variable (p : Position) (s : Scanner) (c : Char) (rest : List Char)

@[simp]
theorem below_skip : (s.below p).skip c rest = (s.skip c rest).below p := by
  simp [below, skip]

@[simp]
theorem below_take : (s.below p).take c rest = (s.take c rest).below p := by
  simp [below, take]

@[simp]
theorem below_takeInString :
    (s.below p).takeInString c rest = (s.takeInString c rest).below p := by
  unfold takeInString
  split <;> simp [below, take]

@[simp]
theorem below_takeEscaped : (s.below p).takeEscaped c rest = (s.takeEscaped c rest).below p := by
  simp [below, takeEscaped, skip]

theorem below_token (kind : TokenKind) : (s.below p).token kind = (s.token kind).below p := by
  simp [below, token, Token.below, Position.below, Nat.add_sub_add_right]

@[simp]
theorem below_goto (mode : Mode) : (s.below p).goto mode = (s.goto mode).below p :=
  rfl

@[simp]
theorem below_emit (kind : TokenKind) : (s.below p).emit kind = (s.emit kind).below p := by
  rw [emit, below_token]
  rfl

@[simp]
theorem below_emitLine : (s.below p).emitLine = s.emitLine.below p := by
  rw [emitLine, below_token, emitLine]
  simp [below, ScanStep.below]

@[simp]
theorem below_fail (fault : LexFault) : (s.below p).fail fault = (s.fail fault).below p :=
  rfl

@[simp]
theorem below_wordKind : (s.below p).wordKind = s.wordKind :=
  rfl

theorem step_below : (s.below p).step = s.step.below p := by
  have hmode : (s.below p).mode = s.mode := rfl
  have hrest : (s.below p).rest = s.rest := rfl
  unfold step
  rw [hmode, hrest]
  split
  · exact congrArg ScanStep.finished (below_token p { s with start := s.here } .endOfFile)
  · split <;> rfl
  all_goals
    repeat' split
    all_goals simp

theorem step_below_of_eq {result : ScanStep} (h : s.step = result) :
    (s.below p).step = result.below p := by
  rw [step_below, h]

theorem keep_below (ignored : List TokenKind) (t : Token) (tokens before : List Token) :
    keep ignored (t.below p) (tokens.map (·.below p) ++ before) =
      (keep ignored t tokens).map (·.below p) ++ before := by
  by_cases h : t.kind ∈ ignored <;> simp [keep, Token.below, h]

theorem run_below (ignored : List TokenKind) (tokens before : List Token) :
    run ignored (s.below p) (tokens.map (·.below p) ++ before) =
      ((run ignored s tokens).map fun later =>
        before.reverse ++ later.map (·.below p)).mapError (·.below p) := by
  induction s, tokens using run_induction ignored with
  | pass s tokens next hstep ih =>
    rw [run_of_step_none ignored _ (step_below_of_eq p s hstep), ih]
  | emit s tokens token next hstep ih =>
    rw [run_of_emits ignored _ ⟨_, .refl, step_below_of_eq p s hstep⟩, keep_below, ih]
  | finish s tokens endOfFile hstep =>
    rw [run_of_finished ignored _ (step_below_of_eq p s hstep), keep_below, List.reverse_append,
      ← List.map_reverse]
    rfl
  | fail s tokens error hstep =>
    rw [run_of_fails ignored _ ⟨_, .refl, step_below_of_eq p s hstep⟩]
    rfl

theorem run_below_origin (ignored : List TokenKind) (text : String) (start : Position)
    (before : List Token) :
    run ignored ⟨.start, text.toList, p.below .origin, start, []⟩ before =
      ((tokenize ignored text).map fun later =>
        before.reverse ++ later.map (·.below p)).mapError (·.below p) := by
  rw [run_start ignored text.toList _ start (p.below .origin)]
  exact run_below p (.ofText text) ignored [] before

end Scanner

theorem endOfLexemes_line (p : Position) (ls : List Lexeme) :
    endOfLexemes p (ls ++ [⟨.endOfLine, ['\n'], ['\n']⟩]) = (endOfLexemes p ls).below .origin := by
  rw [endOfLexemes, List.foldl_append, Position.below, Position.origin, Nat.zero_add, Nat.zero_add]
  rfl

theorem tokenize_line {a : String} {ls : List Lexeme} (h : Cut a.toList ls)
    (ignored : List TokenKind) (b : String) :
    tokenize ignored (a ++ "\n" ++ b) =
      ((tokenize ignored b).map fun later =>
        ((lexemeTokens .origin ls ++ [Token.mk .endOfLine "\n" (endOfLexemes .origin ls) 1]).filter
          fun t => !ignored.contains t.kind) ++
        later.map (·.below (endOfLexemes .origin ls))).mapError
          (·.below (endOfLexemes .origin ls)) := by
  have hlines : (a ++ "\n" ++ b).toList = a.toList ++ '\n' :: b.toList := by simp
  rw [tokenize, Scanner.ofText, hlines,
    Scanner.run_of_beginsWith ignored (h.beginsWith_line b.toList), endOfLexemes_line,
    Scanner.run_below_origin, List.append_nil, List.reverse_reverse, lexemeTokens_append]
  rfl

theorem tokenize_append_lineFeed (ignored : List TokenKind) {a : String} {tokens : List Token}
    (h : tokenize ignored a = .ok tokens) :
    ∃ front p, tokenize [] a = .ok (front ++ [⟨.endOfFile, "", p, 0⟩]) ∧
      ∀ b,
        (∀ later, tokenize ignored b = .ok later →
          tokenize ignored (a ++ "\n" ++ b) = .ok
            (tokens.filter (fun t => t.kind ≠ .endOfFile) ++
              (if .endOfLine ∈ ignored then [] else [⟨.endOfLine, "\n", p, 1⟩]) ++
              later.map (·.below p))) ∧
        ∀ error, tokenize ignored b = .error error →
          tokenize ignored (a ++ "\n" ++ b) = .error (error.below p) := by
  obtain ⟨ls, hcut⟩ := cut_of_tokenize h
  rw [tokenize_of_cut ignored hcut] at h
  obtain rfl := Except.ok.inj h
  refine ⟨lexemeTokens .origin ls, endOfLexemes .origin ls, ?_, fun b => ⟨?_, ?_⟩⟩
  · rw [tokenize_of_cut [] hcut, tokensFrom]
    simp
  · intro later hlater
    rw [tokenize_line hcut, hlater, List.filter_comm, hcut.filter_tokensFrom]
    by_cases hline : TokenKind.endOfLine ∈ ignored <;>
      simp [hline, Except.map, Except.mapError]
  · intro error herror
    rw [tokenize_line hcut, herror]
    rfl

theorem lines_behind_comment :
    tokenize [.space] "é //" = .ok [⟨.identifier, "é", ⟨0, 0, 0⟩, 2⟩,
      ⟨.comment, "//", ⟨3, 0, 2⟩, 2⟩, ⟨.endOfFile, "", ⟨5, 0, 4⟩, 0⟩] ∧
    tokenize [.space] "é //\nx" = .ok [⟨.identifier, "é", ⟨0, 0, 0⟩, 2⟩,
      ⟨.comment, "//", ⟨3, 0, 2⟩, 2⟩, ⟨.endOfLine, "\n", ⟨5, 0, 4⟩, 1⟩,
      ⟨.identifier, "x", ⟨6, 1, 0⟩, 1⟩, ⟨.endOfFile, "", ⟨7, 1, 1⟩, 0⟩] ∧
    tokenize [.space] "é //\nx @" = .error ⟨.unexpectedCharacter '@', ⟨8, 1, 2⟩⟩ := by
  have hfirst : tokenize [.space] "é //" = .ok [⟨.identifier, "é", ⟨0, 0, 0⟩, 2⟩,
      ⟨.comment, "//", ⟨3, 0, 2⟩, 2⟩, ⟨.endOfFile, "", ⟨5, 0, 4⟩, 0⟩] := by decide +kernel
  have hunmasked : tokenize [] "é //" = .ok ([⟨.identifier, "é", ⟨0, 0, 0⟩, 2⟩,
      ⟨.space, " ", ⟨2, 0, 1⟩, 1⟩, ⟨.comment, "//", ⟨3, 0, 2⟩, 2⟩] ++
      [⟨.endOfFile, "", ⟨5, 0, 4⟩, 0⟩]) := by decide +kernel
  have hword : tokenize [.space] "x" =
      .ok [⟨.identifier, "x", ⟨0, 0, 0⟩, 1⟩, ⟨.endOfFile, "", ⟨1, 0, 1⟩, 0⟩] := by decide +kernel
  have herror : tokenize [.space] "x @" = .error ⟨.unexpectedCharacter '@', ⟨2, 0, 2⟩⟩ := by
    decide +kernel
  obtain ⟨front, p, hwhole, hlines⟩ := tokenize_append_lineFeed [.space] hfirst
  obtain rfl : p = ⟨5, 0, 4⟩ := by
    have hend := List.append_inj_right' (Except.ok.inj (hwhole.symm.trans hunmasked)) rfl
    simpa using hend
  exact ⟨hfirst, (hlines "x").1 _ hword, (hlines "x @").2 _ herror⟩

end InterfaceSchema
