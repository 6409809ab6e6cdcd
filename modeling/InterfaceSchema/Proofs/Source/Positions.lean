import InterfaceSchema.Proofs.Source.Scanning

namespace InterfaceSchema

inductive Surrounding where
  | code
  | slash
  | comment
  | string
  | escape
  deriving DecidableEq

def Surrounding.past : Surrounding → Char → Surrounding
  | code, c => if c = '"' then string else if c = '/' then slash else code
  | slash, c => if c = '/' then comment else code
  | comment, c => if isNewLine c then code else comment
  | string, c => if c = '"' then code else if c = '\\' then escape else string
  | escape, _ => string

def unbroken : Surrounding → List Char → List Char
  | _, [] => []
  | s, c :: cs => (if s = .escape ∧ c = '\n' then ' ' else c) :: unbroken (s.past c) cs

theorem unbroken_concat (s : Surrounding) (cs : List Char) (c : Char) :
    unbroken s (cs ++ [c]) = unbroken s cs ++
      [if cs.foldl Surrounding.past s = .escape ∧ c = '\n' then ' ' else c] := by
  induction cs generalizing s with
  | nil => rfl
  | cons d cs ih => rw [List.cons_append, unbroken, unbroken, ih, List.cons_append, List.foldl_cons]

theorem byteLength_unbroken (s : Surrounding) (cs : List Char) :
    byteLength (unbroken s cs) = byteLength cs := by
  induction cs generalizing s with
  | nil => rfl
  | cons c cs ih =>
    rw [unbroken, byteLength, byteLength, ih]
    split
    · next h =>
      rw [h.2]
      rfl
    · rfl

theorem count_unbroken_le (s : Surrounding) (cs : List Char) :
    (unbroken s cs).count '\n' ≤ cs.count '\n' := by
  induction cs generalizing s with
  | nil => exact Nat.le_refl _
  | cons c cs ih =>
    have hrest := ih (s.past c)
    rw [unbroken]
    split
    · next h =>
      rw [h.2, List.count_cons_self, List.count_cons_of_ne (by decide)]
      rw [h.2] at hrest
      omega
    · rw [List.count_cons, List.count_cons]
      omega

theorem unbroken_eq_self_of_count {s : Surrounding} {cs : List Char}
    (h : (unbroken s cs).count '\n' = cs.count '\n') : unbroken s cs = cs := by
  induction cs generalizing s with
  | nil => rfl
  | cons c cs ih =>
    have hle := count_unbroken_le (s.past c) cs
    rw [unbroken] at h ⊢
    split at h
    · next hc =>
      rw [hc.2, List.count_cons_self, List.count_cons_of_ne (by decide)] at h
      rw [hc.2] at hle
      omega
    · next hc =>
      rw [List.count_cons, List.count_cons] at h
      rw [if_neg hc, ih (by omega)]

namespace Position

def after (cs : List Char) : Position :=
  ⟨byteLength cs, cs.count '\n', (cs.reverse.takeWhile (· != '\n')).length⟩

def IsPlaceIn (p : Position) (text : String) : Prop :=
  ∃ before rest, text.toList = before ++ rest ∧ p = after before

theorem after_concat (cs : List Char) (c : Char) :
    after (cs ++ [c]) =
      if c = '\n' then ((after cs).past c).nextLine else (after cs).past c := by
  split
  · next h => simp [after, past, nextLine, byteLength_append, byteLength, h]
  · next h => simp [after, past, byteLength_append, byteLength, List.count_append, h]

theorem after_unbroken_concat (cs : List Char) (c : Char) :
    after (unbroken .code (cs ++ [c])) =
      if c = '\n' ∧ cs.foldl Surrounding.past .code ≠ .escape
      then ((after (unbroken .code cs)).past c).nextLine
      else (after (unbroken .code cs)).past c := by
  rw [unbroken_concat, after_concat]
  by_cases hc : c = '\n'
  · have hsize : ' '.utf8Size = '\n'.utf8Size := rfl
    by_cases hs : cs.foldl Surrounding.past .code = .escape <;> simp [hc, hs, past, hsize]
  · simp [hc]

theorem isPlaceIn_iff {text : String} {before rest : List Char}
    (h : text.toList = before ++ rest) (s : Surrounding) :
    (after (unbroken s before)).IsPlaceIn text ↔ unbroken s before = before := by
  constructor
  · rintro ⟨before', rest', htext, hplace⟩
    have hbytes : byteLength before = byteLength before' := by
      rw [← byteLength_unbroken s before]
      exact congrArg byte hplace
    obtain ⟨rfl, -⟩ := append_inj_of_byteLength (h.symm.trans htext) hbytes
    exact unbroken_eq_self_of_count (congrArg line hplace)
  · intro heq
    exact ⟨before, rest, h, by rw [heq]⟩

end Position

-- What the scanner is reading fits the characters before it. Between two tokens it may still
-- stand in a comment, but only in front of the line break that ends the comment.
inductive Fits : Mode → Surrounding → List Char → Prop
  | start {cs : List Char} : Fits .start .code cs
  | commentEnd {cs : List Char} : (∀ c ∈ cs.head?, isNewLine c = true) → Fits .start .comment cs
  | bracket {cs : List Char} : Fits .bracket .code cs
  | comma {cs : List Char} : Fits .comma .code (',' :: cs)
  | slash {cs : List Char} : Fits .slash .code ('/' :: cs)
  | secondSlash {cs : List Char} : Fits .secondSlash .slash cs
  | comment {cs : List Char} : Fits .comment .comment cs
  | quote {cs : List Char} : Fits .quote .code ('"' :: cs)
  | string {cs : List Char} : Fits .string .string cs
  | escape {cs : List Char} : Fits .escape .escape cs
  | endQuote {cs : List Char} : Fits .endQuote .string ('"' :: cs)
  | lineBreak {s : Surrounding} {c : Char} {cs : List Char} :
      isNewLine c = true → s = .code ∨ s = .comment → Fits .lineBreak s (c :: cs)
  | lineFeed {cs : List Char} : Fits .lineFeed .code cs
  | space {cs : List Char} : Fits .space .code cs
  | whole {cs : List Char} : Fits .whole .code cs
  | point {cs : List Char} : Fits .point .code cs
  | fraction {cs : List Char} : Fits .fraction .code cs
  | word {cs : List Char} : Fits .word .code cs

theorem Fits.of_first {c : Char} {cs : List Char} {s : Surrounding} {mode : Mode}
    (h : Fits .start s (c :: cs)) (hfirst : Mode.ofFirst? c = some mode) :
    Fits mode s (c :: cs) := by
  cases h with
  | start =>
    unfold Mode.ofFirst? at hfirst
    repeat' split at hfirst
    all_goals cases hfirst
    · exact .bracket
    · next hc => exact hc ▸ .comma
    · next hc => exact hc ▸ .slash
    · next hc => exact hc ▸ .quote
    · next hc => exact .lineBreak hc (.inl rfl)
    · exact .space
    · exact .whole
    · exact .word
  | commentEnd hc =>
    have hline : isNewLine c = true := hc c rfl
    have hmode : Mode.ofFirst? c = some .lineBreak := by
      simp only [isNewLine, Bool.or_eq_true, beq_iff_eq] at hline
      rcases hline with rfl | rfl <;> rfl
    obtain rfl := Option.some.inj (hmode.symm.trans hfirst)
    exact .lineBreak hline (.inr rfl)

namespace Scanner

structure Tracks (s : Scanner) (read : List Char) : Prop where
  here : s.here = .after (unbroken .code read)
  fits : Fits s.mode (read.foldl Surrounding.past .code) s.rest

def Proceeds (s next : Scanner) (read : List Char) : Prop :=
  ∃ more, s.rest = more ++ next.rest ∧ next.Tracks (read ++ more)

def StaysOnTrack (s : Scanner) (read : List Char) : ScanStep → Prop
  | .advance _ next => s.Proceeds next read
  | _ => True

variable {s next : Scanner} {read : List Char} {around : Surrounding}

theorem Proceeds.stay (h : s.Tracks read) (haround : read.foldl Surrounding.past .code = around)
    (hhere : next.here = s.here) (hrest : next.rest = s.rest)
    (hfits : Fits next.mode around next.rest) : s.Proceeds next read := by
  refine ⟨[], hrest.symm, ?_⟩
  rw [List.append_nil]
  exact ⟨hhere.trans h.here, haround ▸ hfits⟩

theorem Proceeds.pass (h : s.Tracks read) (haround : read.foldl Surrounding.past .code = around)
    {c : Char} (hrest : s.rest = c :: next.rest)
    (hhere : next.here =
      if c = '\n' ∧ around ≠ .escape then (s.here.past c).nextLine else s.here.past c)
    (hfits : Fits next.mode (around.past c) next.rest) : s.Proceeds next read := by
  refine ⟨[c], hrest, ?_, ?_⟩
  · rw [hhere, h.here, Position.after_unbroken_concat, haround]
  · rw [List.foldl_append, haround]
    exact hfits

theorem Proceeds.take (h : s.Tracks read) (haround : read.foldl Surrounding.past .code = .code)
    {p : Char → Bool} (hp : p '"' = false ∧ p '/' = false ∧ p '\n' = false) {c : Char}
    (hc : p c = true) {rest : List Char} (hrest : s.rest = c :: rest) {mode : Mode}
    {start : Position} {value : List Char} (hfits : Fits mode .code rest) :
    s.Proceeds ⟨mode, rest, s.here.past c, start, value⟩ read := by
  have hne {b : Char} (hb : p b = false) : c ≠ b := by
    rintro rfl
    rw [hc] at hb
    cases hb
  have hpast : Surrounding.code.past c = .code := by
    simp [Surrounding.past, hne hp.1, hne hp.2.1]
  refine .pass h haround hrest (by simp [hne hp.2.2]) ?_
  rw [hpast]
  exact hfits

theorem Tracks.step_nil {mode : Mode} {here start : Position} {value : List Char}
    (h : Tracks ⟨mode, [], here, start, value⟩ read) :
    StaysOnTrack ⟨mode, [], here, start, value⟩ read (step ⟨mode, [], here, start, value⟩) := by
  have hfits := h.fits
  generalize haround : read.foldl Surrounding.past .code = around at hfits
  cases hfits with
  | comment => exact Proceeds.stay h haround rfl rfl (.commentEnd nofun)
  | space | whole | fraction | word => exact Proceeds.stay h haround rfl rfl .start
  | _ => trivial

section Character

variable {c : Char} {rest : List Char} {here start : Position} {value : List Char}

theorem Tracks.step_comment (h : Tracks ⟨.comment, c :: rest, here, start, value⟩ read)
    (haround : read.foldl Surrounding.past .code = .comment) :
    StaysOnTrack ⟨.comment, c :: rest, here, start, value⟩ read
      (step ⟨.comment, c :: rest, here, start, value⟩) := by
  simp only [step]
  split
  · next hc => exact Proceeds.stay h haround rfl rfl (.commentEnd (by simpa using hc))
  · next hc =>
    have hline : c ≠ '\n' := by
      rintro rfl
      exact hc rfl
    refine Proceeds.pass h haround rfl (by simp [hline, enter, Scanner.take]) ?_
    rw [Surrounding.past, if_neg hc]
    exact .comment

theorem Tracks.step_string (h : Tracks ⟨.string, c :: rest, here, start, value⟩ read)
    (haround : read.foldl Surrounding.past .code = .string) :
    StaysOnTrack ⟨.string, c :: rest, here, start, value⟩ read
      (step ⟨.string, c :: rest, here, start, value⟩) := by
  simp only [step]
  split
  · next hc => exact Proceeds.stay h haround rfl rfl (hc ▸ .endQuote)
  split
  · next hc => exact Proceeds.pass h haround rfl (by simp [hc, enter, skip]) (hc ▸ .escape)
  · next hquote hslash =>
    refine @Proceeds.pass _ _ _ _ h haround c ?_ ?_ ?_
    · simp [enter, takeInString_rest]
    · by_cases hc : c = '\n' <;> simp [hc, enter, takeInString, Scanner.take]
    · simp only [Surrounding.past, hquote, hslash, if_false]
      exact .string

theorem Tracks.step_lineBreak (h : Tracks ⟨.lineBreak, c :: rest, here, start, value⟩ read)
    (hc : isNewLine c = true) (haround : read.foldl Surrounding.past .code = around)
    (hcode : around = .code ∨ around = .comment) :
    StaysOnTrack ⟨.lineBreak, c :: rest, here, start, value⟩ read
      (step ⟨.lineBreak, c :: rest, here, start, value⟩) := by
  have hpast : around.past c = .code := by
    simp only [isNewLine, Bool.or_eq_true, beq_iff_eq] at hc
    rcases hc with rfl | rfl <;> rcases hcode with rfl | rfl <;> rfl
  have hescape : around ≠ .escape := by
    rintro rfl
    rcases hcode with hcode | hcode <;> cases hcode
  simp only [step]
  split
  · next hreturn =>
    exact Proceeds.pass h haround rfl (by simp [hreturn, enter, Scanner.take]) (hpast ▸ .lineFeed)
  · next hreturn =>
    have hline : c = '\n' := by simpa [isNewLine, hreturn] using hc
    exact Proceeds.pass h haround rfl (by simp [hline, hescape, Scanner.take]) (hpast ▸ .start)

theorem Tracks.step_number {mode : Mode} (hmode : mode = .whole ∨ mode = .point ∨ mode = .fraction)
    (h : Tracks ⟨mode, c :: rest, here, start, value⟩ read)
    (haround : read.foldl Surrounding.past .code = .code) :
    StaysOnTrack ⟨mode, c :: rest, here, start, value⟩ read
      (step ⟨mode, c :: rest, here, start, value⟩) := by
  have hpoint : c = '.' → (c == '.') = true := beq_iff_eq.mpr
  rcases hmode with rfl | rfl | rfl
  all_goals
    simp only [step]
    split
  · next hc => exact Proceeds.take h haround (by decide) hc rfl .whole
  · split
    · next hc => exact Proceeds.take (p := (· == '.')) h haround (by decide) (hpoint hc) rfl .point
    · exact Proceeds.stay h haround rfl rfl .start
  · next hc => exact Proceeds.take h haround (by decide) hc rfl .fraction
  · split <;> trivial
  · next hc => exact Proceeds.take h haround (by decide) hc rfl .fraction
  · split
    · trivial
    · exact Proceeds.stay h haround rfl rfl .start

end Character

theorem Tracks.step (h : s.Tracks read) : s.StaysOnTrack read s.step := by
  obtain ⟨mode, rest, here, start, value⟩ := s
  have hfits := h.fits
  generalize haround : read.foldl Surrounding.past .code = around at hfits
  cases rest with
  | nil => exact h.step_nil
  | cons c rest =>
    cases hfits with
    | start | commentEnd =>
      simp only [Scanner.step]
      split
      · next hmode => exact Proceeds.stay h haround rfl rfl (haround ▸ h.fits.of_first hmode)
      · trivial
    | bracket =>
      simp only [Scanner.step]
      split
      · next kind hkind =>
        have hc : (bracketKind? c).isSome = true := by rw [hkind]; rfl
        exact Proceeds.take (p := fun c => (bracketKind? c).isSome) h haround (by decide) hc rfl
          .start
      · trivial
    | comma => exact Proceeds.pass h haround rfl rfl .start
    | slash => exact Proceeds.pass h haround rfl rfl .secondSlash
    | secondSlash =>
      simp only [Scanner.step]
      split
      · next hc =>
        exact Proceeds.pass h haround rfl (by simp [hc, enter, Scanner.take]) (hc ▸ .comment)
      · trivial
    | comment => exact h.step_comment haround
    | quote => exact Proceeds.pass h haround rfl rfl .string
    | string => exact h.step_string haround
    | escape =>
      exact Proceeds.pass h haround rfl (by simp [enter, takeEscaped, skip]) .string
    | endQuote => exact Proceeds.pass h haround rfl rfl .start
    | lineBreak hc hcode => exact h.step_lineBreak hc haround hcode
    | lineFeed =>
      simp only [Scanner.step]
      split
      · next hc => exact Proceeds.pass h haround rfl (by simp [hc, Scanner.take]) (hc ▸ .start)
      · trivial
    | space =>
      simp only [Scanner.step]
      split
      · next hc => exact Proceeds.take h haround (by decide) hc rfl .space
      · exact Proceeds.stay h haround rfl rfl .start
    | whole => exact h.step_number (.inl rfl) haround
    | point => exact h.step_number (.inr (.inl rfl)) haround
    | fraction => exact h.step_number (.inr (.inr rfl)) haround
    | word =>
      simp only [Scanner.step]
      split
      · next hc => exact Proceeds.take h haround (by decide +kernel) hc rfl .word
      · exact Proceeds.stay h haround rfl rfl .start

end Scanner

def ScanStep.positions : ScanStep → List Position
  | .advance token next => next.start :: token.toList.map Token.pos
  | .finished endOfFile => [endOfFile.pos]
  | .failed error => [error.pos]

theorem Scanner.takeInString_start (s : Scanner) (c : Char) (rest : List Char) :
    (s.takeInString c rest).start = s.start := by
  unfold takeInString
  split <;> rfl

theorem Scanner.mem_positions_step {s : Scanner} {p : Position} (h : p ∈ s.step.positions) :
    p = s.start ∨ p = s.here := by
  obtain ⟨mode, rest, here, start, value⟩ := s
  cases rest with
  | nil =>
    cases mode <;> simp_all [step, ScanStep.positions, emit, fail, token]
  | cons c rest =>
    cases mode
    all_goals
      simp only [step] at h
      repeat' split at h
      all_goals simp_all [ScanStep.positions, emit, emitLine, goto, fail, token, enter, take, skip,
        takeEscaped, takeInString_start]

def reportedPositions : Except LexError (List Token) → List Position
  | .ok tokens => tokens.map Token.pos
  | .error error => [error.pos]

def Position.IsCountedIn (p : Position) (text : String) : Prop :=
  ∃ before rest, text.toList = before ++ rest ∧ p = after (unbroken .code before)

namespace Scanner

def OnCourse (s : Scanner) (text : String) : Prop :=
  ∃ read, text.toList = read ++ s.rest ∧ s.Tracks read ∧ s.start.IsCountedIn text

variable {text : String} {s next : Scanner}

theorem OnCourse.ofText (text : String) : (ofText text).OnCourse text :=
  ⟨[], rfl, ⟨rfl, .start⟩, [], text.toList, rfl, rfl⟩

theorem OnCourse.isCountedIn (h : s.OnCourse text) :
    ∀ p ∈ s.step.positions, p.IsCountedIn text := by
  obtain ⟨read, htext, htracks, hstart⟩ := h
  intro p hp
  rcases mem_positions_step hp with rfl | rfl
  · exact hstart
  · exact ⟨read, s.rest, htext, htracks.here⟩

theorem OnCourse.step (h : s.OnCourse text) {token : Option Token}
    (hstep : s.step = .advance token next) :
    next.OnCourse text ∧ ∀ t ∈ token, t.pos.IsCountedIn text := by
  have hpositions := h.isCountedIn
  obtain ⟨read, htext, htracks, -⟩ := h
  have htrack := htracks.step
  rw [hstep] at hpositions htrack
  obtain ⟨more, hrest, hnext⟩ := htrack
  refine ⟨⟨read ++ more, ?_, hnext, hpositions next.start List.mem_cons_self⟩, fun t ht => ?_⟩
  · rw [List.append_assoc, ← hrest, htext]
  · obtain rfl := Option.mem_def.mp ht
    exact hpositions t.pos (by simp [ScanStep.positions])

theorem keep_isCountedIn (ignored : List TokenKind) {token : Token} {tokens : List Token}
    (htoken : token.pos.IsCountedIn text) (htokens : ∀ t ∈ tokens, t.pos.IsCountedIn text) :
    ∀ t ∈ keep ignored token tokens, t.pos.IsCountedIn text := by
  unfold keep
  split
  · exact htokens
  · exact List.forall_mem_cons.mpr ⟨htoken, htokens⟩

theorem OnCourse.run (ignored : List TokenKind) (h : s.OnCourse text) {tokens : List Token}
    (htokens : ∀ t ∈ tokens, t.pos.IsCountedIn text) :
    ∀ p ∈ reportedPositions (run ignored s tokens), p.IsCountedIn text := by
  induction s, tokens using Scanner.run_induction ignored with
  | pass s tokens next hstep ih => exact ih (h.step hstep).1 htokens
  | emit s tokens token next hstep ih =>
    obtain ⟨hnext, htoken⟩ := h.step hstep
    exact ih hnext (keep_isCountedIn ignored (htoken token rfl) htokens)
  | finish s tokens endOfFile hstep =>
    have hpositions := h.isCountedIn
    rw [hstep] at hpositions
    have hall := keep_isCountedIn ignored (hpositions endOfFile.pos List.mem_cons_self) htokens
    simpa [reportedPositions] using hall
  | fail s tokens error hstep =>
    have hpositions := h.isCountedIn
    rw [hstep] at hpositions
    exact hpositions

end Scanner

theorem tokenize_positions (ignored : List TokenKind) (text : String) :
    ∀ p ∈ reportedPositions (tokenize ignored text),
      ∃ before rest, text.toList = before ++ rest ∧ p.byte = byteLength before ∧
        p = .after (unbroken .code before) ∧
        (p.IsPlaceIn text ↔ unbroken .code before = before) := by
  intro p hp
  obtain ⟨before, rest, htext, rfl⟩ :=
    (Scanner.OnCourse.ofText text).run ignored (List.forall_mem_nil _) p hp
  exact ⟨before, rest, htext, byteLength_unbroken .code before, rfl,
    Position.isPlaceIn_iff htext .code⟩

theorem position_behind_broken_string :
    ⟨3, 1, 1⟩ ∈ reportedPositions (tokenize [] "\"\n\"x") ∧
      ∃ before rest, "\"\n\"x".toList = before ++ rest ∧ 3 = byteLength before ∧
        ⟨3, 1, 1⟩ = Position.after (unbroken .code before) ∧
        (Position.IsPlaceIn ⟨3, 1, 1⟩ "\"\n\"x" ↔ unbroken .code before = before) := by
  have hp : ⟨3, 1, 1⟩ ∈ reportedPositions (tokenize [] "\"\n\"x") := by decide +kernel
  exact ⟨hp, tokenize_positions [] _ _ hp⟩

theorem position_behind_escaped_lineFeed :
    ∃ p ∈ reportedPositions (tokenize [] "\"\\\n\"x"), ¬ p.IsPlaceIn "\"\\\n\"x" := by
  refine ⟨⟨4, 0, 4⟩, by decide +kernel, ?_⟩
  rintro ⟨before, rest, htext, hplace⟩
  have hfour : byteLength ['"', '\\', '\n', '"'] = byteLength before :=
    congrArg Position.byte hplace
  have hsplit : ['"', '\\', '\n', '"'] ++ ['x'] = before ++ rest := htext
  obtain ⟨rfl, -⟩ := append_inj_of_byteLength hsplit hfour
  exact absurd (congrArg Position.line hplace) (by decide)

end InterfaceSchema
