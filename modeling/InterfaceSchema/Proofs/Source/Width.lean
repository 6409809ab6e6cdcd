import InterfaceSchema.Proofs.Source.Positions
import InterfaceSchema.Proofs.Source.Scanning

namespace InterfaceSchema

namespace Position

def pass (p : Position) (c : Char) : Position :=
  if c = '\n' then (p.past c).nextLine else p.past c

def behind (p : Position) (len : Nat) : Position :=
  ⟨p.byte + len, p.line, p.col + len⟩

theorem line_foldl_pass (p : Position) (cs : List Char) :
    (cs.foldl pass p).line = p.line + cs.count '\n' := by
  induction cs generalizing p with
  | nil => rfl
  | cons c cs ih =>
    rw [List.foldl_cons, ih, List.count_cons, pass]
    by_cases hc : c = '\n' <;> simp [hc, past, nextLine, Nat.add_right_comm, Nat.add_assoc]

theorem foldl_pass_of_ne (p : Position) {cs : List Char} (h : ∀ c ∈ cs, c ≠ '\n') :
    cs.foldl pass p = ⟨p.byte + byteLength cs, p.line, p.col + cs.length⟩ := by
  induction cs generalizing p with
  | nil => rfl
  | cons c cs ih =>
    obtain ⟨hc, hcs⟩ := List.forall_mem_cons.mp h
    rw [List.foldl_cons, ih _ hcs, pass, if_neg hc]
    simp [past, byteLength, Nat.add_assoc, Nat.add_comm 1]

end Position

theorem length_le_byteLength (cs : List Char) : cs.length ≤ byteLength cs := by
  induction cs with
  | nil => exact Nat.le_refl 0
  | cons c cs ih =>
    have hc := c.utf8Size_pos
    rw [List.length_cons, byteLength]
    omega

theorem byteLength_eq_length_iff (cs : List Char) :
    byteLength cs = cs.length ↔ ∀ c ∈ cs, c.utf8Size = 1 := by
  induction cs with
  | nil => simp [byteLength]
  | cons c cs ih =>
    have hc := c.utf8Size_pos
    have hle := length_le_byteLength cs
    rw [byteLength, List.length_cons, List.forall_mem_cons, ← ih]
    omega

theorem Position.foldl_pass_eq_behind_iff (p : Position) (cs : List Char) :
    cs.foldl pass p = p.behind (byteLength cs) ↔ ∀ c ∈ cs, c.utf8Size = 1 ∧ c ≠ '\n' := by
  constructor
  · intro h
    have hline := congrArg line h
    rw [line_foldl_pass] at hline
    have hcount : cs.count '\n' = 0 := by
      change p.line + cs.count '\n' = p.line at hline
      omega
    have hne : ∀ c ∈ cs, c ≠ '\n' := by
      rintro c hc rfl
      exact List.count_eq_zero.mp hcount hc
    have hcol := congrArg col h
    rw [foldl_pass_of_ne p hne] at hcol
    change p.col + cs.length = p.col + byteLength cs at hcol
    have hsize := (byteLength_eq_length_iff cs).mp (by omega)
    exact fun c hc => ⟨hsize c hc, hne c hc⟩
  · intro h
    rw [foldl_pass_of_ne p fun c hc => (h c hc).2, behind,
      (byteLength_eq_length_iff cs).mpr fun c hc => (h c hc).1]

theorem unbroken_code {p : Char → Bool} (hp : p '"' = false ∧ p '/' = false) {cs : List Char}
    (h : ∀ c ∈ cs, p c = true) : unbroken .code cs = cs := by
  induction cs with
  | nil => rfl
  | cons c cs ih =>
    obtain ⟨hc, hcs⟩ := List.forall_mem_cons.mp h
    have hquote : c ≠ '"' := by
      rintro rfl
      simp [hc] at hp
    have hslash : c ≠ '/' := by
      rintro rfl
      simp [hc] at hp
    have hpast : Surrounding.code.past c = .code := by simp [Surrounding.past, hquote, hslash]
    rw [unbroken, hpast, ih hcs]
    simp

theorem advance_eq_foldl_pass {p : Char → Bool}
    (hp : p '"' = false ∧ p '/' = false ∧ p '\n' = false) {cs : List Char}
    (h : ∀ c ∈ cs, p c = true) (start : Position) :
    start.advance cs = (unbroken .code cs).foldl Position.pass start := by
  have hline := Scanner.ne_newLine hp.2.2 h
  rw [unbroken_code ⟨hp.1, hp.2.1⟩ h, Position.advance_eq_foldl_past start hline]
  exact List.foldl_ext _ _ start fun q c hc => (if_neg (hline c hc)).symm

theorem StringBody.advance_eq {cs value : List Char} (h : StringBody cs value) (p : Position) :
    p.advance cs = (unbroken .string cs).foldl Position.pass p := by
  induction h generalizing p with
  | nil => rfl
  | @plain c cs value hquote hslash _ ih =>
    have hpast : Surrounding.string.past c = .string := by
      simp [Surrounding.past, hquote, hslash]
    rw [Position.advance_cons_of_ne hslash, ih, unbroken, hpast]
    rfl
  | @escape c cs value _ ih =>
    have hpass : (p.past '\\').pass (if c = '\n' then ' ' else c) = (p.past '\\').past c := by
      by_cases hc : c = '\n'
      · rw [hc]
        rfl
      · simp [Position.pass, hc]
    have hunbroken : unbroken .string ('\\' :: c :: cs) =
        '\\' :: (if c = '\n' then ' ' else c) :: unbroken .string cs := by
      simp [unbroken, Surrounding.past]
    rw [hunbroken, List.foldl_cons, List.foldl_cons]
    exact (ih _).trans (congrArg (List.foldl _ · _) hpass.symm)

theorem Lexeme.Valid.advance_source {l : Lexeme} (hl : l.Valid)
    (hkind : l.kind ∉ TokenKind.layout) (p : Position) :
    p.advance l.source = (unbroken .code l.source).foldl Position.pass p := by
  cases hl with
  | @bracket c kind hc =>
    have hall : ∀ d ∈ [c], (bracketKind? d).isSome = true := by simp [hc]
    exact @advance_eq_foldl_pass (fun d => (bracketKind? d).isSome) (by decide) _ hall p
  | separator => rfl
  | whole _ hds => exact advance_eq_foldl_pass (by decide) hds p
  | @fraction ds es _ hds _ hes =>
    exact @advance_eq_foldl_pass (fun c => c.isDigit || c == '.') (by decide) _
      (Scanner.isDigit_or_point hds hes) p
  | @word c cs hc hcs =>
    have hparts : ∀ d ∈ c :: cs, isWordPart d = true :=
      List.forall_mem_cons.mpr ⟨isWordPart_of_isWordStart hc, hcs⟩
    exact advance_eq_foldl_pass (by decide +kernel) hparts p
  | @string cs value hbody =>
    have hquote : unbroken .code ('"' :: (cs ++ ['"'])) =
        '"' :: unbroken .string (cs ++ ['"']) := rfl
    have hsource : unbroken .code ('"' :: (cs ++ ['"'])) =
        '"' :: (unbroken .string cs ++ ['"']) := by
      rw [hquote, unbroken_concat]
      simp
    rw [hsource, List.foldl_cons, List.foldl_append, ← hbody.advance_eq]
    exact hbody.advance_append ['"'] (p.past '"')
  | _ => simp [TokenKind.layout] at hkind

theorem Lexeme.Valid.advance_eq_behind_iff {l : Lexeme} (hl : l.Valid)
    (hkind : l.kind ∉ TokenKind.layout) (p : Position) :
    p.advance l.source = p.behind (byteLength l.source) ↔
      ∀ c ∈ unbroken .code l.source, c.utf8Size = 1 ∧ c ≠ '\n' := by
  rw [hl.advance_source hkind, ← byteLength_unbroken .code, Position.foldl_pass_eq_behind_iff]

end InterfaceSchema
