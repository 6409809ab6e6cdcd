import InterfaceSchema.Source.Scanner

namespace InterfaceSchema

namespace Scanner

-- One step when the mode reads the character in front of it, two when it first goes to another
-- mode, three when it first ends a token.
def distance : Mode → List Char → Nat
  | .start, _ => 2
  | .comment, c :: _ => if isNewLine c then 3 else 1
  | .string, c :: _ => if c = '"' then 2 else 1
  | .space, c :: _ => if isSpace c then 1 else 3
  | .whole, c :: _ => if c.isDigit || c = '.' then 1 else 3
  | .fraction, c :: _ => if c.isDigit then 1 else 3
  | .word, c :: _ => if isWordPart c then 1 else 3
  | .comment, [] => 3
  | .space, [] => 3
  | .whole, [] => 3
  | .fraction, [] => 3
  | .word, [] => 3
  | _, _ => 1

def work (s : Scanner) : Nat :=
  4 * s.rest.length + distance s.mode s.rest

theorem distance_pos (mode : Mode) (rest : List Char) : 1 ≤ distance mode rest := by
  unfold distance
  split <;> try split
  all_goals omega

theorem distance_le (mode : Mode) (rest : List Char) : distance mode rest ≤ 3 := by
  unfold distance
  split <;> try split
  all_goals omega

theorem work_lt_of_length_lt {s next : Scanner} (h : next.rest.length < s.rest.length) :
    next.work < s.work := by
  have hs := distance_pos s.mode s.rest
  have hn := distance_le next.mode next.rest
  unfold work
  omega

theorem takeInString_rest (s : Scanner) (c : Char) (rest : List Char) :
    (s.takeInString c rest).rest = rest := by
  unfold takeInString
  split <;> rfl

theorem distance_of_ofFirst? {c : Char} {mode : Mode} (h : Mode.ofFirst? c = some mode)
    (rest : List Char) : distance mode (c :: rest) = 1 := by
  unfold Mode.ofFirst? at h
  repeat' split at h
  all_goals cases h
  all_goals simp_all [distance, isWordPart_of_isWordStart]

theorem work_lt_of_step {s next : Scanner} {token : Option Token}
    (h : s.step = .advance token next) : next.work < s.work := by
  obtain ⟨mode, rest, here, start, value⟩ := s
  cases rest with
  | nil =>
      cases mode <;> simp [step, emit, fail] at h <;> simp [← h.2, work, distance]
  | cons c rest =>
      cases mode with
      | start =>
          simp only [step] at h
          split at h
          · next mode hm =>
              obtain ⟨-, rfl⟩ := ScanStep.advance.inj h
              have hd : distance mode (c :: rest) = 1 := distance_of_ofFirst? hm rest
              change 4 * (c :: rest).length + distance mode (c :: rest) < 4 * (c :: rest).length + 2
              omega
          · simp [fail] at h
      | comment | space | whole | fraction | word | string =>
          simp only [step] at h
          repeat' split at h
          all_goals simp only [emit, goto, fail, ScanStep.advance.injEq, reduceCtorEq] at h
          all_goals obtain ⟨-, rfl⟩ := h
          -- Either a character was read, or the mode changed in front of it.
          all_goals first
            | (apply work_lt_of_length_lt; simp [take, skip, takeInString_rest, enter]; done)
            | simp_all [work, distance, enter]
      | _ =>
          simp only [step] at h
          repeat' split at h
          all_goals
            simp only [emit, emitLine, goto, fail, ScanStep.advance.injEq, reduceCtorEq] at h
          all_goals obtain ⟨-, rfl⟩ := h
          all_goals apply work_lt_of_length_lt
          all_goals simp [take, skip, takeEscaped, enter]

def keep (ignored : List TokenKind) (token : Token) (tokens : List Token) : List Token :=
  if ignored.contains token.kind then tokens else token :: tokens

-- `tokens` is latest first.
def run (ignored : List TokenKind) (s : Scanner) (tokens : List Token) :
    Except LexError (List Token) :=
  match h : s.step with
  | .advance none next =>
      have := work_lt_of_step h
      run ignored next tokens
  | .advance (some token) next =>
      have := work_lt_of_step h
      run ignored next (keep ignored token tokens)
  | .finished endOfFile => .ok (keep ignored endOfFile tokens).reverse
  | .failed error => .error error
termination_by s.work

end Scanner

def tokenize (ignored : List TokenKind) (text : String) : Except LexError (List Token) :=
  Scanner.run ignored (.ofText text) []

end InterfaceSchema
