import InterfaceSchema.Proofs.Source.Lexeme
import InterfaceSchema.Source.Tokenize
import Mathlib.Logic.Relation

namespace InterfaceSchema

namespace Scanner

def Passes : Scanner → Scanner → Prop :=
  Relation.ReflTransGen fun s next => s.step = .advance none next

def Emits (s : Scanner) (token : Token) (next : Scanner) : Prop :=
  ∃ last, s.Passes last ∧ last.step = .advance (some token) next

def Fails (s : Scanner) (error : LexError) : Prop :=
  ∃ last, s.Passes last ∧ last.step = .failed error

@[elab_as_elim] theorem run_induction (ignored : List TokenKind)
    {P : Scanner → List Token → Except LexError (List Token) → Prop}
    (pass : ∀ s tokens next, s.step = .advance none next →
      P next tokens (run ignored next tokens) → P s tokens (run ignored next tokens))
    (emit : ∀ s tokens token next, s.step = .advance (some token) next →
      P next (keep ignored token tokens) (run ignored next (keep ignored token tokens)) →
      P s tokens (run ignored next (keep ignored token tokens)))
    (finish : ∀ s tokens endOfFile, s.step = .finished endOfFile →
      P s tokens (.ok (keep ignored endOfFile tokens).reverse))
    (fail : ∀ s tokens error, s.step = .failed error → P s tokens (.error error))
    (s : Scanner) (tokens : List Token) : P s tokens (run ignored s tokens) := by
  fun_induction run ignored s tokens with
  | case1 s tokens next hstep _ ih => exact pass s tokens next hstep ih
  | case2 s tokens token next hstep _ ih => exact emit s tokens token next hstep ih
  | case3 s tokens endOfFile hstep => exact finish s tokens endOfFile hstep
  | case4 s tokens error hstep => exact fail s tokens error hstep

theorem run_of_step_none (ignored : List TokenKind) {s next : Scanner} (tokens : List Token)
    (h : s.step = .advance none next) : run ignored s tokens = run ignored next tokens := by
  rw [run]
  split <;> simp_all

theorem run_of_passes (ignored : List TokenKind) {s next : Scanner} (tokens : List Token)
    (h : s.Passes next) : run ignored s tokens = run ignored next tokens := by
  induction h with
  | refl => rfl
  | tail _ hstep ih => rw [ih, run_of_step_none ignored tokens hstep]

theorem run_of_emits (ignored : List TokenKind) {s next : Scanner} {token : Token}
    (tokens : List Token) (h : s.Emits token next) :
    run ignored s tokens = run ignored next (keep ignored token tokens) := by
  obtain ⟨last, hpasses, hstep⟩ := h
  rw [run_of_passes ignored tokens hpasses, run]
  split <;> simp_all

theorem run_of_fails (ignored : List TokenKind) {s : Scanner} {error : LexError}
    (tokens : List Token) (h : s.Fails error) : run ignored s tokens = .error error := by
  obtain ⟨last, hpasses, hstep⟩ := h
  rw [run_of_passes ignored tokens hpasses, run]
  split <;> simp_all

theorem run_of_finished (ignored : List TokenKind) {s : Scanner} {endOfFile : Token}
    (tokens : List Token) (h : s.step = .finished endOfFile) :
    run ignored s tokens = .ok (keep ignored endOfFile tokens).reverse := by
  rw [run]
  split <;> simp_all

theorem Passes.step {s next last : Scanner} (hstep : s.step = .advance none next)
    (h : next.Passes last) : s.Passes last :=
  h.head hstep

variable {mode : Mode} {here start : Position} {value rest : List Char}

theorem passes_start {c : Char} {cs : List Char} (h : Mode.ofFirst? c = some mode) :
    Passes ⟨.start, c :: cs, here, start, []⟩ ⟨mode, c :: cs, here, here, []⟩ :=
  .single (by simp [step, h, goto, enter])

def Loops (mode : Mode) (p : Char → Bool) : Prop :=
  ∀ (c : Char) (rest : List Char) (here start : Position) (value : List Char), p c = true →
    step ⟨mode, c :: rest, here, start, value⟩ =
      .advance none ⟨mode, rest, here.past c, start, c :: value⟩

theorem loops_comment : Loops .comment fun c => !isNewLine c := by
  intro c rest here start value hc
  simp_all [step, goto, take, enter]

theorem loops_space : Loops .space isSpace := by
  intro c rest here start value hc
  simp [step, hc, goto, take, enter]

theorem loops_whole : Loops .whole Char.isDigit := by
  intro c rest here start value hc
  simp [step, hc, goto, take, enter]

theorem loops_fraction : Loops .fraction Char.isDigit := by
  intro c rest here start value hc
  simp [step, hc, goto, take, enter]

theorem loops_word : Loops .word isWordPart := by
  intro c rest here start value hc
  simp [step, hc, goto, take, enter]

theorem Loops.passes {p : Char → Bool} (h : Loops mode p) {cs : List Char}
    (hcs : ∀ c ∈ cs, p c = true) {read : List Char} :
    Passes ⟨mode, cs ++ rest, read.foldl Position.past start, start, read.reverse⟩
      ⟨mode, rest, (read ++ cs).foldl Position.past start, start, (read ++ cs).reverse⟩ := by
  induction cs generalizing read with
  | nil =>
    rw [List.append_nil]
    exact .refl
  | cons c cs ih =>
    have hlater := @ih (fun d hd => hcs d (List.mem_cons_of_mem c hd)) (read ++ [c])
    rw [List.append_assoc, List.singleton_append] at hlater
    refine Passes.step ?_ hlater
    rw [List.cons_append, h c (cs ++ rest) _ start _ (hcs c List.mem_cons_self),
      List.foldl_append, List.reverse_append]
    rfl

theorem Loops.passes_from_start {p : Char → Bool} (h : Loops mode p) {c : Char} {cs : List Char}
    (hfirst : Mode.ofFirst? c = some mode) (hcs : ∀ d ∈ c :: cs, p d = true) {before : Position} :
    Passes ⟨.start, c :: cs ++ rest, start, before, []⟩
      ⟨mode, rest, (c :: cs).foldl Position.past start, start, (c :: cs).reverse⟩ :=
  (passes_start hfirst).trans (@Loops.passes mode start rest p h (c :: cs) hcs [])

theorem passes_whole {ds : List Char} (hne : ds ≠ []) (hds : ∀ d ∈ ds, d.isDigit = true)
    {before : Position} :
    Passes ⟨.start, ds ++ rest, start, before, []⟩
      ⟨.whole, rest, ds.foldl Position.past start, start, ds.reverse⟩ := by
  obtain ⟨d, ds, rfl⟩ := List.exists_cons_of_ne_nil hne
  exact loops_whole.passes_from_start (Mode.ofFirst?_of_isDigit (hds d List.mem_cons_self)) hds

theorem passes_point {ds : List Char} (hne : ds ≠ []) (hds : ∀ d ∈ ds, d.isDigit = true)
    {before : Position} :
    Passes ⟨.start, ds ++ '.' :: rest, start, before, []⟩
      ⟨.point, rest, (ds ++ ['.']).foldl Position.past start, start, (ds ++ ['.']).reverse⟩ := by
  refine (passes_whole hne hds).tail ?_
  simp [step, goto, take, enter]

theorem passes_fraction {ds es : List Char} (hne : ds ≠ []) (hds : ∀ d ∈ ds, d.isDigit = true)
    (hnes : es ≠ []) (hes : ∀ e ∈ es, e.isDigit = true) {before : Position} :
    Passes ⟨.start, ds ++ '.' :: es ++ rest, start, before, []⟩
      ⟨.fraction, rest, (ds ++ '.' :: es).foldl Position.past start, start,
        (ds ++ '.' :: es).reverse⟩ := by
  obtain ⟨e, es, rfl⟩ := List.exists_cons_of_ne_nil hnes
  have he : e.isDigit = true := hes e List.mem_cons_self
  have hfirst : step ⟨.point, e :: (es ++ rest), (ds ++ ['.']).foldl Position.past start, start,
      (ds ++ ['.']).reverse⟩ = .advance none ⟨.fraction, es ++ rest,
        (ds ++ ['.', e]).foldl Position.past start, start, (ds ++ ['.', e]).reverse⟩ := by
    simp [step, he, goto, take, enter]
  have hrun := @Loops.passes .fraction start rest _ loops_fraction es
    (fun d hd => hes d (List.mem_cons_of_mem e hd)) (ds ++ ['.', e])
  rw [List.append_assoc] at hrun ⊢
  exact ((passes_point hne hds).tail hfirst).trans hrun

theorem passes_comment {cs : List Char} (hcs : ∀ c ∈ cs, isNewLine c = false)
    {before : Position} :
    Passes ⟨.start, '/' :: '/' :: cs ++ rest, start, before, []⟩
      ⟨.comment, rest, ('/' :: '/' :: cs).foldl Position.past start, start,
        ('/' :: '/' :: cs).reverse⟩ := by
  have hrun := @Loops.passes .comment start rest _ loops_comment cs
    (fun c hc => by simp [hcs c hc]) ['/', '/']
  exact (passes_start rfl).trans (Passes.step rfl (Passes.step rfl hrun))

theorem passes_stringBody {cs value : List Char} (h : StringBody cs value) :
    ∀ {here : Position} {read : List Char},
    Passes ⟨.string, cs ++ rest, here, start, read⟩
      ⟨.string, rest, here.advance cs, start, value.reverse ++ read⟩ := by
  induction h with
  | nil => intro here read; exact .refl
  | @plain c cs value hquote hslash h ih =>
    intro here read
    rw [Position.advance_cons_of_ne hslash, List.reverse_cons, List.append_assoc]
    refine Passes.step ?_ ih
    simp only [List.cons_append, step, hquote, hslash, if_false, takeInString, goto, take, enter]
    split <;> rfl
  | @escape c cs value h ih =>
    intro here read
    rw [List.reverse_cons, List.append_assoc]
    have hslash : step ⟨.string, '\\' :: c :: (cs ++ rest), here, start, read⟩ =
        .advance none ⟨.escape, c :: (cs ++ rest), here.past '\\', start, read⟩ := rfl
    exact Passes.step hslash (Passes.step rfl ih)

theorem token_lexeme (mode : Mode) (rest : List Char) {l : Lexeme}
    (hhere : here.byte = (start.advance l.source).byte) :
    token ⟨mode, rest, here, start, l.value.reverse⟩ l.kind = l.token start := by
  simp [token, Lexeme.token, hhere, Position.byte_advance]

theorem emits_of_passes {s last : Scanner} {cs : List Char} {kind : TokenKind}
    (hline : ∀ c ∈ cs, c ≠ '\n') (hpasses : s.Passes last)
    (hstep : last.step =
      emit ⟨mode, rest, cs.foldl Position.past start, start, cs.reverse⟩ kind) :
    s.Emits (Lexeme.token ⟨kind, cs, cs⟩ start) ⟨.start, rest, start.advance cs, start, []⟩ := by
  refine ⟨last, hpasses, hstep.trans ?_⟩
  rw [← Position.advance_eq_foldl_past start hline, emit, ← token_lexeme mode rest rfl]

theorem step_of_endsBefore {kind : TokenKind}
    (hmode : (mode, kind) ∈ [(Mode.comment, TokenKind.comment), (.space, .space),
      (.whole, .numberValue), (.fraction, .numberValue)])
    (h : kind.EndsBefore rest) :
    step ⟨mode, rest, here, start, value⟩ = emit ⟨mode, rest, here, start, value⟩ kind := by
  simp only [List.mem_cons, Prod.mk.injEq, List.not_mem_nil, or_false] at hmode
  rcases hmode with ⟨rfl, rfl⟩ | ⟨rfl, rfl⟩ | ⟨rfl, rfl⟩ | ⟨rfl, rfl⟩
  all_goals
    cases rest with
    | nil => rfl
    | cons c rest => simp_all [step, TokenKind.EndsBefore, TokenKind.goesOnWith]

theorem step_word_of_endsBefore {cs : List Char} (h : (wordKindOf cs).EndsBefore rest) :
    step ⟨.word, rest, here, start, cs.reverse⟩ =
      emit ⟨.word, rest, here, start, cs.reverse⟩ (wordKindOf cs) := by
  have hkind : wordKind ⟨.word, rest, here, start, cs.reverse⟩ = wordKindOf cs := by
    simp [wordKind, wordKindOf]
  cases rest with
  | nil => simp only [step, hkind]
  | cons c rest =>
    have hc : isWordPart c = false := goesOnWith_wordKindOf cs c ▸ h c rfl
    simp [step, hkind, hc]

theorem ne_newLine {p : Char → Bool} (hp : p '\n' = false) {cs : List Char}
    (h : ∀ c ∈ cs, p c = true) : ∀ c ∈ cs, c ≠ '\n' := by
  rintro c hc rfl
  rw [h '\n' hc] at hp
  cases hp

theorem isDigit_or_point {ds es : List Char} (hds : ∀ d ∈ ds, d.isDigit = true)
    (hes : ∀ e ∈ es, e.isDigit = true) :
    ∀ c ∈ ds ++ '.' :: es, (c.isDigit || c == '.') = true := by
  grind

theorem ne_newLine_number {ds es : List Char} (hds : ∀ d ∈ ds, d.isDigit = true)
    (hes : ∀ e ∈ es, e.isDigit = true) : ∀ c ∈ ds ++ '.' :: es, c ≠ '\n' :=
  @ne_newLine (fun c => c.isDigit || c == '.') rfl _ (isDigit_or_point hds hes)

theorem passes_quote {cs value : List Char} (h : StringBody cs value) {before : Position} :
    Passes ⟨.start, '"' :: (cs ++ rest), start, before, []⟩
      ⟨.string, rest, start.advance ('"' :: cs), start, value.reverse⟩ := by
  have hbody := @passes_stringBody start rest cs value h (start.past '"') []
  rw [List.append_nil] at hbody
  exact (passes_start rfl).trans (Passes.step rfl hbody)

theorem emits_string {cs value : List Char} (h : StringBody cs value) {before : Position} :
    Emits ⟨.start, '"' :: (cs ++ ['"']) ++ rest, start, before, []⟩
      (Lexeme.token ⟨.stringValue, '"' :: (cs ++ ['"']), value⟩ start)
      ⟨.start, rest, start.advance ('"' :: (cs ++ ['"'])), start, []⟩ := by
  have hend : start.advance ('"' :: (cs ++ ['"'])) = (start.advance ('"' :: cs)).past '"' :=
    h.advance_append ['"'] (start.past '"')
  have hsource : '"' :: (cs ++ ['"']) ++ rest = '"' :: (cs ++ '"' :: rest) := by simp
  rw [hsource]
  refine ⟨_, (passes_quote h).tail rfl, ?_⟩
  rw [← token_lexeme .endQuote rest rfl, hend]
  rfl

theorem emits_lexeme {l : Lexeme} (hl : l.Valid) (hrest : l.kind.EndsBefore rest)
    {before : Position} :
    Emits ⟨.start, l.source ++ rest, start, before, []⟩ (l.token start)
      ⟨.start, rest, start.advance l.source, start, []⟩ := by
  cases hl with
  | @bracket c kind hkind =>
    have hbrace := isBrace_of_bracketKind? hkind
    have hline : ∀ d ∈ [c], d ≠ '\n' := by
      rintro d hd rfl
      obtain rfl := List.mem_singleton.mp hd
      exact absurd hbrace (by decide)
    have hstep : step ⟨.bracket, c :: rest, start, start, []⟩ =
        emit ⟨.bracket, rest, [c].foldl Position.past start, start, [c].reverse⟩ kind := by
      simp only [step, hkind]
      rfl
    exact emits_of_passes hline (passes_start (Mode.ofFirst?_of_isBrace hbrace)) hstep
  | separator => exact emits_of_passes (by simp) (passes_start rfl) rfl
  | lineFeed =>
    refine ⟨_, passes_start rfl, ?_⟩
    rw [← token_lexeme .lineBreak rest rfl]
    rfl
  | returnLineFeed =>
    refine ⟨_, (passes_start rfl).tail rfl, ?_⟩
    rw [← token_lexeme .lineFeed rest rfl]
    rfl
  | @comment cs hcs =>
    have hline := @ne_newLine (fun c => !isNewLine c) rfl ('/' :: '/' :: cs)
      (by simpa [isNewLine] using hcs)
    exact emits_of_passes hline (passes_comment hcs) (step_of_endsBefore (by decide) hrest)
  | @space cs hne hcs =>
    obtain ⟨c, cs, rfl⟩ := List.exists_cons_of_ne_nil hne
    have hfirst := Mode.ofFirst?_of_isSpace (hcs c List.mem_cons_self)
    exact emits_of_passes (ne_newLine rfl hcs) (loops_space.passes_from_start hfirst hcs)
      (step_of_endsBefore (by decide) hrest)
  | @whole ds hne hds =>
    exact emits_of_passes (ne_newLine rfl hds) (passes_whole hne hds)
      (step_of_endsBefore (by decide) hrest)
  | @fraction ds es hne hds hnes hes =>
    exact emits_of_passes (ne_newLine_number hds hes) (passes_fraction hne hds hnes hes)
      (step_of_endsBefore (by decide) hrest)
  | @word c cs hc hcs =>
    have hparts : ∀ d ∈ c :: cs, isWordPart d = true := by
      simpa [isWordPart_of_isWordStart hc] using hcs
    have hfirst := Mode.ofFirst?_of_isWordStart hc
    exact emits_of_passes (ne_newLine (by decide) hparts)
      (loops_word.passes_from_start hfirst hparts) (step_word_of_endsBefore hrest)
  | @string cs value h => exact emits_string h

theorem fails_stuck {consumed : List Char} {fault : LexFault} (h : Stuck consumed rest fault)
    {before : Position} :
    Fails ⟨.start, consumed ++ rest, start, before, []⟩ ⟨fault, start.advance consumed⟩ := by
  cases h with
  | @character c rest hc => exact ⟨_, .refl, by simp [step, hc, fail, Position.advance]⟩
  | @bracket c rest hbrace hkind =>
    refine ⟨_, passes_start (Mode.ofFirst?_of_isBrace hbrace), ?_⟩
    simp [step, hkind, fail, Position.advance]
  | slash hrest =>
    refine ⟨_, (passes_start rfl).tail rfl, ?_⟩
    cases rest with
    | nil => rfl
    | cons c rest =>
      have hc : c ≠ '/' := hrest c rfl
      simp [step, hc, fail, take, enter, Position.advance]
  | lineReturn hrest =>
    refine ⟨_, (passes_start rfl).tail rfl, ?_⟩
    cases rest with
    | nil => rfl
    | cons c rest =>
      have hc : c ≠ '\n' := hrest c rfl
      simp [step, hc, fail, take, enter, Position.advance]
  | @point ds rest hne hds hrest =>
    have hpasses := @passes_point start rest ds hne hds before
    rw [List.append_assoc, Position.advance_eq_foldl_past start
      (ne_newLine_number hds (by simp))]
    refine ⟨_, hpasses, ?_⟩
    cases rest with
    | nil => rfl
    | cons c rest =>
      obtain ⟨hdigit, hpoint⟩ := hrest c rfl
      simp [step, hdigit, hpoint, fail]
  | @secondPoint ds es rest hne hds hes =>
    rw [Position.advance_eq_foldl_past start (ne_newLine_number hds hes)]
    cases es with
    | nil =>
      rw [List.append_assoc]
      exact ⟨_, passes_point hne hds, rfl⟩
    | cons e es => exact ⟨_, passes_fraction hne hds (List.cons_ne_nil e es) hes, rfl⟩
  | string hbody => exact ⟨_, passes_quote hbody, rfl⟩
  | @escape cs value hbody =>
    have hend : start.advance ('"' :: (cs ++ ['\\'])) = (start.advance ('"' :: cs)).past '\\' :=
      hbody.advance_append ['\\'] (start.past '"')
    rw [List.append_nil, hend]
    exact ⟨_, (passes_quote hbody).tail rfl, rfl⟩

theorem reverse_keep (ignored : List TokenKind) (t : Token) (tokens : List Token) :
    (keep ignored t tokens).reverse =
      tokens.reverse ++ [t].filter fun t => !ignored.contains t.kind := by
  unfold keep
  split <;> simp_all

theorem run_eq_of_step_eq (ignored : List TokenKind) {s s' : Scanner} (h : s.step = s'.step)
    (tokens : List Token) : run ignored s tokens = run ignored s' tokens := by
  rw [run, run]
  split <;> split <;> simp_all

theorem run_start (ignored : List TokenKind) (cs : List Char) (here before before' : Position)
    (tokens : List Token) :
    run ignored ⟨.start, cs, here, before, []⟩ tokens =
      run ignored ⟨.start, cs, here, before', []⟩ tokens := by
  apply run_eq_of_step_eq
  cases cs with
  | nil => rfl
  | cons c cs =>
    simp only [step]
    split <;> rfl

theorem run_of_beginsWith (ignored : List TokenKind) {cs : List Char} {ls : List Lexeme}
    (h : BeginsWith cs ls rest) (start before : Position) (tokens : List Token) :
    run ignored ⟨.start, cs, start, before, []⟩ tokens =
      run ignored ⟨.start, rest, endOfLexemes start ls, before, []⟩
        (((lexemeTokens start ls).filter fun t => !ignored.contains t.kind).reverse ++ tokens) := by
  induction h generalizing start tokens with
  | nil => rfl
  | @cons l cs rest ls hl hcs _ ih =>
    rw [run_of_emits ignored tokens (emits_lexeme hl hcs), run_start ignored cs _ start before,
      ih, lexemeTokens, List.filter_cons]
    congr 1
    by_cases hkind : (l.token start).kind ∈ ignored <;> simp [keep, hkind]

theorem step_atEnd (here before : Position) :
    step ⟨.start, [], here, before, []⟩ = .finished ⟨.endOfFile, "", here, 0⟩ := by
  simp only [step, token, List.reverse_nil, Nat.sub_self]

theorem run_of_cut (ignored : List TokenKind) {cs : List Char} {ls : List Lexeme}
    (h : Cut cs ls) (start before : Position) (tokens : List Token) :
    run ignored ⟨.start, cs, start, before, []⟩ tokens =
      .ok (tokens.reverse ++ (tokensFrom start ls).filter fun t => !ignored.contains t.kind) := by
  rw [run_of_beginsWith ignored h.beginsWith, run_of_finished ignored _ (step_atEnd _ _),
    reverse_keep, List.reverse_append, List.reverse_reverse, List.append_assoc,
    ← List.filter_append]
  rfl

theorem run_of_stuck (ignored : List TokenKind) {cs consumed : List Char} {ls : List Lexeme}
    {fault : LexFault} (h : BeginsWith cs ls (consumed ++ rest))
    (hstuck : Stuck consumed rest fault) (start before : Position) (tokens : List Token) :
    run ignored ⟨.start, cs, start, before, []⟩ tokens =
      .error ⟨fault, (endOfLexemes start ls).advance consumed⟩ := by
  rw [run_of_beginsWith ignored h]
  exact run_of_fails ignored _ (fails_stuck hstuck)

end Scanner

theorem tokenize_of_cut (ignored : List TokenKind) {text : String} {ls : List Lexeme}
    (h : Cut text.toList ls) :
    tokenize ignored text =
      .ok ((tokensFrom .origin ls).filter fun t => !ignored.contains t.kind) :=
  Scanner.run_of_cut ignored h .origin .origin []

theorem cut_of_tokenize {ignored : List TokenKind} {text : String} {tokens : List Token}
    (h : tokenize ignored text = .ok tokens) : ∃ ls, Cut text.toList ls := by
  refine (cut_or_stuck text.toList).resolve_right ?_
  rintro ⟨ls, consumed, rest, fault, hls, hstuck⟩
  rw [tokenize, Scanner.ofText, Scanner.run_of_stuck ignored hls hstuck] at h
  cases h

theorem Cut.unique {cs : List Char} {ls ls' : List Lexeme} (h : Cut cs ls) (h' : Cut cs ls') :
    ls = ls' := by
  have hrun := (Scanner.run_of_cut [] h .origin .origin []).symm.trans
    (Scanner.run_of_cut [] h' .origin .origin [])
  have htokens : tokensFrom .origin ls = tokensFrom .origin ls' := by simpa using hrun
  exact h.eq_of_tokensFrom h' htokens

end InterfaceSchema
