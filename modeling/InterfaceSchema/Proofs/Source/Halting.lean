import InterfaceSchema.Proofs.Source.Scanning

namespace InterfaceSchema

def Mode.handlesEnd : Mode → Bool
  | .bracket | .comma | .slash | .quote | .endQuote | .lineBreak => false
  | _ => true

namespace Scanner

inductive Steps (ignored : List TokenKind) :
    Nat → Scanner → List Token → Scanner → List Token → Prop
  | refl (s : Scanner) (tokens : List Token) : Steps ignored 0 s tokens s tokens
  | pass {n : Nat} {s next last : Scanner} {tokens kept : List Token} :
      s.step = .advance none next → Steps ignored n next tokens last kept →
      Steps ignored (n + 1) s tokens last kept
  | emit {n : Nat} {s next last : Scanner} {token : Token} {tokens kept : List Token} :
      s.step = .advance (some token) next →
      Steps ignored n next (keep ignored token tokens) last kept →
      Steps ignored (n + 1) s tokens last kept

-- The scanner stops, and the result is what it makes of the tokens that it has kept.
inductive Halts (ignored : List TokenKind) (s : Scanner) (tokens : List Token) :
    Except LexError (List Token) → Prop
  | atEnd {endOfFile : Token} :
      s.mode = .start → s.rest = [] → s.step = .finished endOfFile →
      Halts ignored s tokens (.ok (keep ignored endOfFile tokens).reverse)
  | atError {error : LexError} : s.step = .failed error → Halts ignored s tokens (.error error)

def Entered (s : Scanner) : Prop :=
  s.rest = [] → s.mode.handlesEnd = true

def Leads (s : Scanner) : ScanStep → Prop
  | .advance _ next => next.Entered
  | .finished _ => s.mode = .start ∧ s.rest = []
  | .failed error => ∀ mode, error.fault = .unexpectedEnd mode → ¬ s.Entered

variable {ignored : List TokenKind} {n : Nat} {s next last : Scanner} {tokens kept : List Token}

theorem leads_fail {fault : LexFault} (h : ∀ mode, fault ≠ .unexpectedEnd mode) :
    s.Leads (next.fail fault) :=
  fun mode hmode => absurd hmode (h mode)

theorem leads_goto_of_rest {mode : Mode} {c : Char} {rest : List Char} (h : next.rest = c :: rest) :
    s.Leads (next.goto mode) := by
  intro hrest
  cases h.symm.trans hrest

theorem leads_goto {mode : Mode} (h : mode.handlesEnd = true) : s.Leads (next.goto mode) :=
  fun _ => h

theorem leads_emit (kind : TokenKind) : s.Leads (next.emit kind) :=
  fun _ => rfl

theorem leads_emitLine : s.Leads next.emitLine :=
  fun _ => rfl

theorem leads_unexpectedEnd (hrest : s.rest = []) (hmode : s.mode.handlesEnd = false) :
    s.Leads (s.fail (.unexpectedEnd s.mode)) := by
  intro _ _ hentered
  rw [hentered hrest] at hmode
  cases hmode

theorem leads_step (s : Scanner) : s.Leads s.step := by
  obtain ⟨mode, rest, here, start, value⟩ := s
  cases rest with
  | nil =>
    cases mode with
    | start => exact ⟨rfl, rfl⟩
    | bracket | comma | slash | quote | endQuote | lineBreak => exact leads_unexpectedEnd rfl rfl
    | comment | space | whole | fraction | word => exact leads_emit _
    | secondSlash | string | escape | lineFeed | point => exact leads_fail (by rintro mode ⟨⟩)
  | cons c rest =>
    cases mode <;> simp only [step]
    all_goals repeat' split
    all_goals first
      | exact leads_emit _
      | exact leads_emitLine
      | exact leads_fail (by rintro mode ⟨⟩)
      | exact leads_goto rfl
      | exact leads_goto_of_rest rfl

theorem entered_of_step {token : Option Token} (h : s.step = .advance token next) :
    next.Entered := by
  have hleads := leads_step s
  rwa [h] at hleads

theorem Steps.entered (h : Steps ignored n s tokens last kept) (hs : s.Entered) :
    last.Entered := by
  induction h with
  | refl => exact hs
  | pass hstep _ ih | emit hstep _ ih => exact ih (entered_of_step hstep)

theorem Steps.add_work_le (h : Steps ignored n s tokens last kept) : n + last.work ≤ s.work := by
  induction h with
  | refl => exact Nat.le_of_eq (Nat.zero_add _)
  | pass hstep _ ih | emit hstep _ ih =>
    have hless := work_lt_of_step hstep
    omega

theorem exists_halts (ignored : List TokenKind) (s : Scanner) (tokens : List Token) :
    ∃ n last kept, Steps ignored n s tokens last kept ∧
      last.Halts ignored kept (run ignored s tokens) := by
  induction s, tokens using run_induction ignored with
  | pass s tokens next hstep ih =>
    obtain ⟨n, last, kept, hsteps, hhalts⟩ := ih
    exact ⟨n + 1, last, kept, .pass hstep hsteps, hhalts⟩
  | emit s tokens token next hstep ih =>
    obtain ⟨n, last, kept, hsteps, hhalts⟩ := ih
    exact ⟨n + 1, last, kept, .emit hstep hsteps, hhalts⟩
  | finish s tokens endOfFile hstep =>
    have hend := leads_step s
    rw [hstep] at hend
    exact ⟨0, s, tokens, .refl s tokens, .atEnd hend.1 hend.2 hstep⟩
  | fail s tokens error hstep => exact ⟨0, s, tokens, .refl s tokens, .atError hstep⟩

end Scanner

theorem tokenize_halts (ignored : List TokenKind) (text : String) :
    (∃ n last kept, Scanner.Steps ignored n (.ofText text) [] last kept ∧
      last.Halts ignored kept (tokenize ignored text)) ∧
    ∀ n s tokens, Scanner.Steps ignored n (.ofText text) [] s tokens →
      n ≤ 4 * text.length + 1 ∧ (s.rest = [] → s.mode.handlesEnd = true) ∧
        ∀ mode p, s.step ≠ .failed ⟨.unexpectedEnd mode, p⟩ := by
  refine ⟨Scanner.exists_halts ignored _ _, fun n s tokens hsteps => ⟨?_, ?_⟩⟩
  · have hwork := hsteps.add_work_le
    have hpos := Scanner.distance_pos s.mode s.rest
    have hall : Scanner.work (.ofText text) = 4 * text.length + 2 := rfl
    rw [hall, Scanner.work] at hwork
    omega
  · have hentered : s.Entered := hsteps.entered fun _ => rfl
    refine ⟨hentered, fun mode p hstep => ?_⟩
    have hleads := Scanner.leads_step s
    rw [hstep] at hleads
    exact hleads mode rfl hentered

theorem halts_behind_comment :
    ∃ s, Scanner.Steps [.space] 4 (.ofText "//é") [] s [] ∧ s.rest = [] ∧
      s.mode.handlesEnd = true ∧ ∀ mode p, s.step ≠ .failed ⟨.unexpectedEnd mode, p⟩ := by
  have hsteps : Scanner.Steps [.space] 4 (.ofText "//é") []
      ⟨.comment, [], ⟨4, 0, 3⟩, .origin, ['é', '/', '/']⟩ [] :=
    .pass rfl (.pass rfl (.pass rfl (.pass rfl (.refl _ _))))
  obtain ⟨-, hend, hstep⟩ := (tokenize_halts [.space] "//é").2 _ _ _ hsteps
  exact ⟨_, hsteps, rfl, hend rfl, hstep⟩

end InterfaceSchema
