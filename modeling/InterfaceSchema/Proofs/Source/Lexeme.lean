import InterfaceSchema.Source.LexError
import Mathlib.Data.List.Basic

namespace InterfaceSchema

structure Lexeme where
  kind : TokenKind
  source : List Char
  value : List Char
  deriving DecidableEq, Repr

inductive StringBody : List Char → List Char → Prop
  | nil : StringBody [] []
  | plain {c : Char} {cs value : List Char} :
      c ≠ '"' → c ≠ '\\' → StringBody cs value → StringBody (c :: cs) (c :: value)
  | escape {c : Char} {cs value : List Char} :
      StringBody cs value → StringBody ('\\' :: c :: cs) (escaped c :: value)

def wordKindOf (cs : List Char) : TokenKind :=
  if isKeyword (String.ofList cs) then .keyword else .identifier

inductive Lexeme.Valid : Lexeme → Prop
  | bracket {c : Char} {kind : TokenKind} : bracketKind? c = some kind → Valid ⟨kind, [c], [c]⟩
  | separator : Valid ⟨.separator, [','], [',']⟩
  | lineFeed : Valid ⟨.endOfLine, ['\n'], ['\n']⟩
  | returnLineFeed : Valid ⟨.endOfLine, ['\r', '\n'], ['\r', '\n']⟩
  | comment {cs : List Char} :
      (∀ c ∈ cs, isNewLine c = false) → Valid ⟨.comment, '/' :: '/' :: cs, '/' :: '/' :: cs⟩
  | space {cs : List Char} : cs ≠ [] → (∀ c ∈ cs, isSpace c = true) → Valid ⟨.space, cs, cs⟩
  | whole {ds : List Char} :
      ds ≠ [] → (∀ d ∈ ds, d.isDigit = true) → Valid ⟨.numberValue, ds, ds⟩
  | fraction {ds es : List Char} :
      ds ≠ [] → (∀ d ∈ ds, d.isDigit = true) → es ≠ [] → (∀ e ∈ es, e.isDigit = true) →
      Valid ⟨.numberValue, ds ++ '.' :: es, ds ++ '.' :: es⟩
  | word {c : Char} {cs : List Char} :
      isWordStart c = true → (∀ d ∈ cs, isWordPart d = true) →
      Valid ⟨wordKindOf (c :: cs), c :: cs, c :: cs⟩
  | string {cs value : List Char} :
      StringBody cs value → Valid ⟨.stringValue, '"' :: (cs ++ ['"']), value⟩

theorem Lexeme.Valid.source_ne_nil {l : Lexeme} (h : l.Valid) : l.source ≠ [] := by
  cases h <;> simp_all

theorem Lexeme.Valid.kind_ne_endOfFile {l : Lexeme} (h : l.Valid) : l.kind ≠ .endOfFile := by
  cases h with
  | @bracket c kind hkind =>
    rintro rfl
    unfold bracketKind? at hkind
    repeat' split at hkind
    all_goals cases hkind
  | word =>
    unfold wordKindOf
    split <;> exact nofun
  | _ => exact nofun

def TokenKind.goesOnWith : TokenKind → Char → Bool
  | .comment, c => !isNewLine c
  | .space, c => isSpace c
  | .numberValue, c => c.isDigit || c == '.'
  | .identifier, c => isWordPart c
  | .keyword, c => isWordPart c
  | _, _ => false

def TokenKind.EndsBefore (kind : TokenKind) (rest : List Char) : Prop :=
  ∀ c ∈ rest.head?, kind.goesOnWith c = false

inductive Cut : List Char → List Lexeme → Prop
  | nil : Cut [] []
  | cons {l : Lexeme} {rest : List Char} {ls : List Lexeme} :
      l.Valid → l.kind.EndsBefore rest → Cut rest ls → Cut (l.source ++ rest) (l :: ls)

theorem Cut.valid_of_mem {cs : List Char} {ls : List Lexeme} (h : Cut cs ls) :
    ∀ l ∈ ls, l.Valid := by
  induction h with
  | nil => exact nofun
  | cons hl _ _ ih => exact List.forall_mem_cons.mpr ⟨hl, ih⟩

inductive BeginsWith : List Char → List Lexeme → List Char → Prop
  | nil {rest : List Char} : BeginsWith rest [] rest
  | cons {l : Lexeme} {cs rest : List Char} {ls : List Lexeme} :
      l.Valid → l.kind.EndsBefore cs → BeginsWith cs ls rest →
      BeginsWith (l.source ++ cs) (l :: ls) rest

theorem goesOnWith_lineFeed (kind : TokenKind) : kind.goesOnWith '\n' = false := by
  cases kind <;> decide

namespace BeginsWith

variable {cs rest : List Char} {ls : List Lexeme}

theorem append {es : List Char} {ms : List Lexeme} (h : BeginsWith cs ls rest)
    (h' : BeginsWith rest ms es) : BeginsWith cs (ls ++ ms) es := by
  induction h with
  | nil => exact h'
  | cons hl hcs _ ih => exact .cons hl hcs (ih h')

theorem cut {ms : List Lexeme} (h : BeginsWith cs ls rest) (hrest : Cut rest ms) :
    Cut cs (ls ++ ms) := by
  induction h with
  | nil => exact hrest
  | cons hl hcs _ ih => exact .cons hl hcs (ih hrest)

theorem eq_append (h : BeginsWith cs ls rest) : cs = ls.flatMap Lexeme.source ++ rest := by
  induction h with
  | nil => rfl
  | cons _ _ _ ih => rw [List.flatMap_cons, List.append_assoc, ← ih]

-- To the lexemes only the first character behind them matters, and a line feed ends them all.
theorem followedBy (h : BeginsWith cs ls rest) {others : List Char}
    (hothers : ∀ c ∈ others.head?, c ∈ rest.head? ∨ c = '\n') :
    BeginsWith (ls.flatMap Lexeme.source ++ others) ls others := by
  induction h with
  | nil => exact .nil
  | @cons l cs rest ls hl hcs hrest ih =>
    rw [List.flatMap_cons, List.append_assoc]
    refine .cons hl (fun c hc => ?_) (ih hothers)
    rw [hrest.eq_append] at hcs
    cases hsources : ls.flatMap Lexeme.source with
    | nil =>
      rw [hsources] at hc hcs
      rcases hothers c hc with hsame | rfl
      · exact hcs c hsame
      · exact goesOnWith_lineFeed l.kind
    | cons d ds =>
      rw [hsources] at hc hcs
      exact hcs c hc

end BeginsWith

namespace Cut

variable {cs : List Char} {ls : List Lexeme}

theorem beginsWith (h : Cut cs ls) : BeginsWith cs ls [] := by
  induction h with
  | nil => exact .nil
  | cons hl hrest _ ih => exact .cons hl hrest ih

theorem flatMap_source (h : Cut cs ls) : ls.flatMap Lexeme.source = cs := by
  rw [h.beginsWith.eq_append, List.append_nil]

theorem beginsWith_line (h : Cut cs ls) (ds : List Char) :
    BeginsWith (cs ++ '\n' :: ds) (ls ++ [⟨.endOfLine, ['\n'], ['\n']⟩]) ds := by
  have hls := @BeginsWith.followedBy _ _ _ h.beginsWith ('\n' :: ds) (by simp)
  rw [h.flatMap_source] at hls
  exact hls.append (.cons .lineFeed (fun _ _ => rfl) .nil)

end Cut

theorem Lexeme.Valid.cut {l : Lexeme} (h : l.Valid) : Cut l.source [l] := by
  have hcut : Cut (l.source ++ []) [l] := .cons h (fun _ hc => by cases hc) .nil
  rwa [List.append_nil] at hcut

-- Inside a lexeme a line break is found only in a string or at its end; escaped, it starts no line.
def Position.advance : Position → List Char → Position
  | p, [] => p
  | p, '\\' :: c :: cs => ((p.past '\\').past c).advance cs
  | p, c :: cs => (if c = '\n' then (p.past c).nextLine else p.past c).advance cs

def byteLength : List Char → Nat
  | [] => 0
  | c :: cs => c.utf8Size + byteLength cs

def Lexeme.token (l : Lexeme) (p : Position) : Token :=
  ⟨l.kind, String.ofList l.value, p, byteLength l.source⟩

def lexemeTokens : Position → List Lexeme → List Token
  | _, [] => []
  | p, l :: ls => l.token p :: lexemeTokens (p.advance l.source) ls

def endOfLexemes (p : Position) (ls : List Lexeme) : Position :=
  ls.foldl (fun p l => p.advance l.source) p

def tokensFrom (p : Position) (ls : List Lexeme) : List Token :=
  lexemeTokens p ls ++ [⟨.endOfFile, "", endOfLexemes p ls, 0⟩]

theorem lexemeTokens_append (p : Position) (ls ms : List Lexeme) :
    lexemeTokens p (ls ++ ms) = lexemeTokens p ls ++ lexemeTokens (endOfLexemes p ls) ms := by
  induction ls generalizing p with
  | nil => rfl
  | cons l ls ih => exact congrArg (l.token p :: ·) (ih (p.advance l.source))

theorem exists_of_mem_lexemeTokens {p : Position} {ls : List Lexeme} {t : Token}
    (h : t ∈ lexemeTokens p ls) :
    ∃ before l after, ls = before ++ l :: after ∧ t = l.token (endOfLexemes p before) := by
  induction ls generalizing p with
  | nil => cases h
  | cons l ls ih =>
    rcases List.mem_cons.mp h with rfl | h
    · exact ⟨[], l, ls, rfl, rfl⟩
    · obtain ⟨before, m, after, rfl, rfl⟩ := ih h
      exact ⟨l :: before, m, after, rfl, rfl⟩

theorem Cut.kind_lexemeTokens {cs : List Char} {ls : List Lexeme} (h : Cut cs ls) (p : Position) :
    ∀ t ∈ lexemeTokens p ls, t.kind ≠ .endOfFile := by
  intro t ht
  obtain ⟨before, l, after, rfl, rfl⟩ := exists_of_mem_lexemeTokens ht
  exact (h.valid_of_mem l (by simp)).kind_ne_endOfFile

theorem byteLength_append (cs ds : List Char) :
    byteLength (cs ++ ds) = byteLength cs + byteLength ds := by
  induction cs with
  | nil => simp [byteLength]
  | cons c cs ih => simp [byteLength, ih, Nat.add_assoc]

theorem eq_nil_of_byteLength_eq_zero {cs : List Char} (h : byteLength cs = 0) : cs = [] := by
  cases cs with
  | nil => rfl
  | cons c cs =>
    have hc := c.utf8Size_pos
    rw [byteLength] at h
    omega

theorem append_inj_of_byteLength {cs ds cs' ds' : List Char} (h : cs ++ cs' = ds ++ ds')
    (hlength : byteLength cs = byteLength ds) : cs = ds ∧ cs' = ds' := by
  rcases List.append_eq_append_iff.mp h with ⟨es, rfl, rfl⟩ | ⟨es, rfl, rfl⟩
  all_goals
    rw [byteLength_append] at hlength
    have hes : byteLength es = 0 := by omega
    simp [eq_nil_of_byteLength_eq_zero hes]

theorem tokensFrom_cons (p : Position) (l : Lexeme) (ls : List Lexeme) :
    tokensFrom p (l :: ls) = l.token p :: tokensFrom (p.advance l.source) ls :=
  rfl

theorem tokensFrom_ne_nil (p : Position) (ls : List Lexeme) : tokensFrom p ls ≠ [] := by
  cases ls <;> simp [tokensFrom]

theorem Cut.filter_tokensFrom {cs : List Char} {ls : List Lexeme} (h : Cut cs ls) (p : Position) :
    (tokensFrom p ls).filter (fun t => t.kind ≠ .endOfFile) = lexemeTokens p ls := by
  have hkinds := List.filter_eq_self.mpr fun t ht => decide_eq_true (h.kind_lexemeTokens p t ht)
  rw [tokensFrom, List.filter_append, hkinds]
  exact List.append_nil _

theorem Cut.eq_of_tokensFrom {cs : List Char} {ls ls' : List Lexeme} (h : Cut cs ls)
    (h' : Cut cs ls') {p : Position} (htokens : tokensFrom p ls = tokensFrom p ls') : ls = ls' := by
  induction h generalizing ls' p with
  | nil =>
    cases ls' with
    | nil => rfl
    | cons l' ls' => exact absurd (List.cons.inj htokens).2.symm (tokensFrom_ne_nil _ ls')
  | @cons l rest ls hl hrest _ ih =>
    cases ls' with
    | nil => exact absurd (List.cons.inj htokens).2 (tokensFrom_ne_nil _ ls)
    | cons l' ls' =>
      rw [tokensFrom_cons, tokensFrom_cons] at htokens
      obtain ⟨htoken, htail⟩ := List.cons.inj htokens
      simp only [Lexeme.token, Token.mk.injEq, String.ofList_inj, true_and] at htoken
      obtain ⟨hkind, hvalue, hlength⟩ := htoken
      generalize htext : l.source ++ rest = text at h'
      cases h' with
      | @cons _ rest' _ _ _ hcut =>
        obtain ⟨hsource, rfl⟩ := append_inj_of_byteLength htext hlength
        have hl' : l = l' := by
          cases l
          cases l'
          simp_all
        rw [hl', ih hcut (hsource ▸ htail)]

theorem Position.advance_cons_of_ne {c : Char} (hslash : c ≠ '\\') (p : Position) (cs : List Char) :
    p.advance (c :: cs) = (if c = '\n' then (p.past c).nextLine else p.past c).advance cs := by
  rw [advance]
  simp [hslash]

theorem Position.advance_eq_foldl_past (p : Position) {cs : List Char} (h : ∀ c ∈ cs, c ≠ '\n') :
    p.advance cs = cs.foldl past p := by
  fun_induction advance p cs with
  | case1 => rfl
  | case2 p c cs ih => exact ih fun d hd => h d (by simp [hd])
  | case3 p c cs _ ih =>
    have hc : c ≠ '\n' := h c List.mem_cons_self
    simp only [hc, if_false] at ih ⊢
    exact ih fun d hd => h d (List.mem_cons_of_mem c hd)

theorem Position.byte_advance (p : Position) (cs : List Char) :
    (p.advance cs).byte = p.byte + byteLength cs := by
  fun_induction advance p cs with
  | case1 => simp [byteLength]
  | case2 p c cs ih =>
    rw [ih]
    simp [byteLength, past]
    omega
  | case3 p c cs _ ih =>
    rw [ih]
    split <;> simp [byteLength, past, nextLine] <;> omega

theorem StringBody.advance_append {cs value : List Char} (h : StringBody cs value)
    (rest : List Char) (p : Position) : p.advance (cs ++ rest) = (p.advance cs).advance rest := by
  induction h generalizing p with
  | nil => rfl
  | plain _ hslash _ ih =>
    rw [List.cons_append, Position.advance_cons_of_ne hslash,
      Position.advance_cons_of_ne hslash, ih]
  | escape _ ih => exact ih _

inductive Stuck : List Char → List Char → LexFault → Prop
  | character {c : Char} {rest : List Char} :
      Mode.ofFirst? c = none → Stuck [] (c :: rest) (.unexpectedCharacter c)
  | bracket {c : Char} {rest : List Char} :
      isBrace c = true → bracketKind? c = none → Stuck [] (c :: rest) (.invalidBracket c)
  | slash {rest : List Char} : (∀ c ∈ rest.head?, c ≠ '/') → Stuck ['/'] rest .straySlash
  | lineReturn {rest : List Char} : (∀ c ∈ rest.head?, c ≠ '\n') → Stuck ['\r'] rest .strayReturn
  | point {ds rest : List Char} :
      ds ≠ [] → (∀ d ∈ ds, d.isDigit = true) →
      (∀ c ∈ rest.head?, c.isDigit = false ∧ c ≠ '.') → Stuck (ds ++ ['.']) rest .missingFraction
  | secondPoint {ds es rest : List Char} :
      ds ≠ [] → (∀ d ∈ ds, d.isDigit = true) → (∀ e ∈ es, e.isDigit = true) →
      Stuck (ds ++ '.' :: es) ('.' :: rest) .secondPoint
  | string {cs value : List Char} :
      StringBody cs value → Stuck ('"' :: cs) [] .unterminatedString
  | escape {cs value : List Char} :
      StringBody cs value → Stuck ('"' :: (cs ++ ['\\'])) [] .unterminatedString

theorem Text.exists_range_of_inRanges {n : Nat} {ranges : List (Nat × Nat)}
    (h : inRanges n ranges = true) : ∃ range ∈ ranges, range.1 ≤ n ∧ n ≤ range.2 := by
  induction ranges with
  | nil => simp [inRanges] at h
  | cons range ranges ih =>
    simp only [inRanges] at h
    split at h
    · simp at h
    · next hfirst =>
      rcases Bool.or_eq_true_iff.mp h with hlast | hlater
      · exact ⟨range, List.mem_cons_self, by omega, of_decide_eq_true hlast⟩
      · obtain ⟨later, hmem, hlater⟩ := ih hlater
        exact ⟨later, List.mem_cons_of_mem range hmem, hlater⟩

theorem Text.isAlphabetic_eq_false_of_isBlank {c : Char} (h : isBlank c = true) :
    isAlphabetic c = false := by
  have hall : ∀ range ∈ blankRanges, ∀ i < range.2 + 1 - range.1,
      inRanges (range.1 + i) alphabeticRanges = false := by decide +kernel
  obtain ⟨range, hmem, hfirst, hlast⟩ := exists_range_of_inRanges h
  have hoffset := hall range hmem (c.toNat - range.1) (by omega)
  rwa [Nat.add_sub_cancel' hfirst] at hoffset

theorem Text.inRanges_eq_false_of_isDigit {ranges : List (Nat × Nat)}
    (hall : ∀ range ∈ ranges, range.2 < 48 ∨ 57 < range.1) {c : Char} (h : c.isDigit = true) :
    inRanges c.toNat ranges = false := by
  rw [Bool.eq_false_iff]
  intro hin
  obtain ⟨range, hmem, hfirst, hlast⟩ := exists_range_of_inRanges hin
  have hdigit : 48 ≤ c.toNat ∧ c.toNat ≤ 57 := by
    simpa [Char.isDigit, UInt32.le_iff_toNat_le] using h
  have := hall range hmem
  omega

theorem Text.isBlank_eq_false_of_isDigit {c : Char} (h : c.isDigit = true) : isBlank c = false :=
  inRanges_eq_false_of_isDigit (by decide) h

theorem Text.isAlphabetic_eq_false_of_isDigit {c : Char} (h : c.isDigit = true) :
    isAlphabetic c = false :=
  inRanges_eq_false_of_isDigit (by decide +kernel) h

theorem isBrace_of_bracketKind? {c : Char} {kind : TokenKind} (h : bracketKind? c = some kind) :
    isBrace c = true := by
  unfold bracketKind? at h
  repeat' split at h
  all_goals first | (subst c; decide) | cases h

namespace Mode

def punctuation : List Char :=
  ['\x7b', '\x7d', '(', ')', '<', '>', '[', ']', ',', '/', '"', '\r', '\n']

theorem ofFirst?_of_isBrace {c : Char} (h : isBrace c = true) : ofFirst? c = some .bracket :=
  if_pos h

theorem not_mem_punctuation {p : Char → Bool} (hp : punctuation.all (fun b => !p b) = true)
    {c : Char} (h : p c = true) : c ∉ punctuation := by
  intro hc
  have hnot := List.all_eq_true.mp hp c hc
  rw [h] at hnot
  cases hnot

theorem ofFirst?_of_not_mem_punctuation {c : Char} (h : c ∉ punctuation) :
    ofFirst? c =
      if isSpace c then some .space
      else if c.isDigit then some .whole
      else if isWordStart c then some .word
      else none := by
  simp only [punctuation, List.mem_cons, List.not_mem_nil, not_or] at h
  simp [ofFirst?, isBrace, isNewLine, h]

theorem ofFirst?_of_isSpace {c : Char} (h : isSpace c = true) : ofFirst? c = some .space := by
  rw [ofFirst?_of_not_mem_punctuation (not_mem_punctuation (by decide) h), if_pos h]

theorem ofFirst?_of_isDigit {c : Char} (h : c.isDigit = true) : ofFirst? c = some .whole := by
  have hspace : isSpace c = false := by simp [isSpace, Text.isBlank_eq_false_of_isDigit h]
  rw [ofFirst?_of_not_mem_punctuation (not_mem_punctuation (by decide) h)]
  simp [hspace, h]

theorem ofFirst?_of_isWordStart {c : Char} (h : isWordStart c = true) :
    ofFirst? c = some .word := by
  have hspace : isSpace c = false := by
    rw [Bool.eq_false_iff]
    intro hspace
    have hblank : Text.isBlank c = true := (Bool.and_eq_true_iff.mp hspace).2
    simp only [isWordStart, Text.isAlphabetic_eq_false_of_isBlank hblank, Bool.false_or,
      Bool.or_eq_true, beq_iff_eq] at h
    rcases h with rfl | rfl <;> revert hblank <;> decide
  have hdigit : c.isDigit = false := by
    rw [Bool.eq_false_iff]
    intro hdigit
    simp only [isWordStart, Text.isAlphabetic_eq_false_of_isDigit hdigit, Bool.false_or,
      Bool.or_eq_true, beq_iff_eq] at h
    rcases h with rfl | rfl <;> revert hdigit <;> decide
  rw [ofFirst?_of_not_mem_punctuation (not_mem_punctuation (by decide +kernel) h)]
  simp [hspace, hdigit, h]

end Mode

theorem exists_longest_run (p : Char → Bool) (cs : List Char) :
    ∃ run rest, cs = run ++ rest ∧ (∀ c ∈ run, p c = true) ∧ ∀ c ∈ rest.head?, p c = false := by
  induction cs with
  | nil => exact ⟨[], [], by simp⟩
  | cons c cs ih =>
    cases hc : p c with
    | false => exact ⟨[], c :: cs, by simp [hc]⟩
    | true =>
      obtain ⟨run, rest, rfl, hrun, hrest⟩ := ih
      exact ⟨c :: run, rest, by simp, by simpa [hc] using hrun, hrest⟩

inductive StringOpening : List Char → Prop
  | closed {body value : List Char} (rest : List Char) :
      StringBody body value → StringOpening (body ++ '"' :: rest)
  | unclosed {body value : List Char} : StringBody body value → StringOpening body
  | dangling {body value : List Char} :
      StringBody body value → StringOpening (body ++ ['\\'])

theorem StringOpening.extend (front : List Char) {cs : List Char} {v : Char}
    (hfront : ∀ {body value}, StringBody body value → StringBody (front ++ body) (v :: value))
    (h : StringOpening cs) : StringOpening (front ++ cs) := by
  cases h with
  | closed rest hbody =>
    rw [← List.append_assoc]
    exact .closed rest (hfront hbody)
  | unclosed hbody => exact .unclosed (hfront hbody)
  | dangling hbody =>
    rw [← List.append_assoc]
    exact .dangling (hfront hbody)

theorem stringOpening : ∀ cs : List Char, StringOpening cs
  | [] => .unclosed .nil
  | [c] => by
    by_cases hquote : c = '"'
    · exact hquote ▸ .closed [] .nil
    by_cases hslash : c = '\\'
    · exact hslash ▸ .dangling .nil
    exact .unclosed (StringBody.nil.plain hquote hslash)
  | c :: d :: cs => by
    by_cases hquote : c = '"'
    · exact hquote ▸ .closed (d :: cs) .nil
    by_cases hslash : c = '\\'
    · exact hslash ▸ (stringOpening cs).extend ['\\', d] .escape
    exact (stringOpening (d :: cs)).extend [c] (.plain hquote hslash)

inductive Opening : List Char → Prop
  | lexeme {l : Lexeme} {rest : List Char} :
      l.Valid → l.kind.EndsBefore rest → Opening (l.source ++ rest)
  | stuck {consumed rest : List Char} {fault : LexFault} :
      Stuck consumed rest fault → Opening (consumed ++ rest)

theorem goesOnWith_of_bracketKind? {c : Char} {kind : TokenKind} (h : bracketKind? c = some kind)
    (d : Char) : kind.goesOnWith d = false := by
  unfold bracketKind? at h
  repeat' split at h
  all_goals cases h
  all_goals rfl

theorem goesOnWith_wordKindOf (cs : List Char) (c : Char) :
    (wordKindOf cs).goesOnWith c = isWordPart c := by
  unfold wordKindOf
  split <;> rfl

theorem opening_fraction {ds : List Char} (hne : ds ≠ []) (hds : ∀ d ∈ ds, d.isDigit = true)
    (cs : List Char) : Opening (ds ++ '.' :: cs) := by
  obtain ⟨es, rest, rfl, hes, hrest⟩ := exists_longest_run Char.isDigit cs
  rw [← List.cons_append, ← List.append_assoc]
  by_cases hsecond : rest.head? = some '.'
  · obtain ⟨rest, rfl⟩ := List.head?_eq_some_iff.mp hsecond
    exact .stuck (.secondPoint hne hds hes)
  have hpoint : ∀ c ∈ rest.head?, c ≠ '.' := by
    rintro c hc rfl
    exact hsecond hc
  cases es with
  | nil => exact .stuck (.point hne hds fun c hc => ⟨hrest c hc, hpoint c hc⟩)
  | cons e es =>
    refine .lexeme (.fraction hne hds (List.cons_ne_nil e es) hes) fun c hc => ?_
    simp [TokenKind.goesOnWith, hrest c hc, hpoint c hc]

theorem opening_number {c : Char} (hc : c.isDigit = true) (cs : List Char) :
    Opening (c :: cs) := by
  obtain ⟨ds, rest, rfl, hds, hrest⟩ := exists_longest_run Char.isDigit cs
  have hdigits : ∀ d ∈ c :: ds, d.isDigit = true := by simpa [hc] using hds
  have hne : c :: ds ≠ [] := List.cons_ne_nil c ds
  rw [← List.cons_append]
  by_cases hpoint : rest.head? = some '.'
  · obtain ⟨rest, rfl⟩ := List.head?_eq_some_iff.mp hpoint
    exact opening_fraction hne hdigits rest
  · refine .lexeme (.whole hne hdigits) fun d hd => ?_
    have hd' : d ≠ '.' := by
      rintro rfl
      exact hpoint hd
    simp [TokenKind.goesOnWith, hrest d hd, hd']

theorem opening_slash (cs : List Char) : Opening ('/' :: cs) := by
  by_cases hslash : cs.head? = some '/'
  · obtain ⟨cs, rfl⟩ := List.head?_eq_some_iff.mp hslash
    obtain ⟨text, rest, rfl, htext, hrest⟩ := exists_longest_run (fun c => !isNewLine c) cs
    exact .lexeme (.comment fun c hc => Bool.not_eq_true' (isNewLine c) ▸ htext c hc) hrest
  · refine .stuck (.slash fun c hc => ?_)
    rintro rfl
    exact hslash hc

theorem opening_return (cs : List Char) : Opening ('\r' :: cs) := by
  by_cases hline : cs.head? = some '\n'
  · obtain ⟨cs, rfl⟩ := List.head?_eq_some_iff.mp hline
    exact .lexeme .returnLineFeed fun _ _ => rfl
  · refine .stuck (.lineReturn fun c hc => ?_)
    rintro rfl
    exact hline hc

theorem opening_quote (cs : List Char) : Opening ('"' :: cs) := by
  cases stringOpening cs with
  | @closed body _ rest hbody =>
    have hsource : '"' :: (body ++ '"' :: rest) = '"' :: (body ++ ['"']) ++ rest := by simp
    rw [hsource]
    exact .lexeme (.string hbody) fun _ _ => rfl
  | unclosed hbody =>
    have hstuck := Opening.stuck (.string hbody)
    rwa [List.append_nil] at hstuck
  | dangling hbody =>
    have hstuck := Opening.stuck (.escape hbody)
    rwa [List.append_nil] at hstuck

theorem opening {text : List Char} (hne : text ≠ []) : Opening text := by
  obtain ⟨c, cs, rfl⟩ := List.exists_cons_of_ne_nil hne
  by_cases hbrace : isBrace c = true
  · cases hkind : bracketKind? c with
    | none => exact @Opening.stuck [] _ _ (.bracket hbrace hkind)
    | some kind =>
      exact .lexeme (.bracket hkind) fun d _ => goesOnWith_of_bracketKind? hkind d
  by_cases hcomma : c = ','
  · exact hcomma ▸ .lexeme .separator fun _ _ => rfl
  by_cases hslash : c = '/'
  · exact hslash ▸ opening_slash cs
  by_cases hquote : c = '"'
  · exact hquote ▸ opening_quote cs
  by_cases hreturn : c = '\r'
  · exact hreturn ▸ opening_return cs
  by_cases hline : c = '\n'
  · exact hline ▸ .lexeme .lineFeed fun _ _ => rfl
  by_cases hspace : isSpace c = true
  · obtain ⟨blanks, rest, rfl, hblanks, hrest⟩ := exists_longest_run isSpace cs
    have hall : ∀ d ∈ c :: blanks, isSpace d = true := by simpa [hspace] using hblanks
    exact .lexeme (.space (List.cons_ne_nil c blanks) hall) hrest
  by_cases hdigit : c.isDigit = true
  · exact opening_number hdigit cs
  by_cases hword : isWordStart c = true
  · obtain ⟨part, rest, rfl, hpart, hrest⟩ := exists_longest_run isWordPart cs
    exact .lexeme (.word hword hpart) fun d hd => by
      rw [goesOnWith_wordKindOf, hrest d hd]
  · have hnone : Mode.ofFirst? c = none := by
      simp [Mode.ofFirst?, isNewLine, hbrace, hcomma, hslash, hquote, hreturn, hline, hspace,
        hdigit, hword]
    exact @Opening.stuck [] _ _ (.character hnone)

theorem cut_or_stuck (cs : List Char) :
    (∃ ls, Cut cs ls) ∨ ∃ ls consumed rest fault,
      BeginsWith cs ls (consumed ++ rest) ∧ Stuck consumed rest fault := by
  induction hlength : cs.length using Nat.strongRecOn generalizing cs with
  | ind n ih =>
    by_cases hne : cs = []
    · exact .inl (hne ▸ ⟨[], .nil⟩)
    cases opening hne with
    | @lexeme l rest hl hrest =>
      have hpos : 0 < l.source.length := List.length_pos_iff.mpr hl.source_ne_nil
      rw [List.length_append] at hlength
      refine (ih rest.length (by omega) rest rfl).imp ?_ ?_
      · rintro ⟨ls, hcut⟩
        exact ⟨l :: ls, .cons hl hrest hcut⟩
      · rintro ⟨ls, consumed, es, fault, hls, hstuck⟩
        exact ⟨l :: ls, consumed, es, fault, .cons hl hrest hls, hstuck⟩
    | stuck hstuck => exact .inr ⟨[], _, _, _, .nil, hstuck⟩

end InterfaceSchema
