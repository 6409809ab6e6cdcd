import InterfaceSchema.Proofs.Source.Coverage
import Mathlib.Order.Bounds.Basic

namespace InterfaceSchema

theorem StringBody.append {cs ds value more : List Char} (h : StringBody cs value)
    (h' : StringBody ds more) : StringBody (cs ++ ds) (value ++ more) := by
  induction h with
  | nil => exact h'
  | plain hquote hslash _ ih => exact ih.plain hquote hslash
  | escape _ ih => exact ih.escape

namespace Stuck

variable {consumed rest : List Char} {fault : LexFault}

theorem starts_lexeme (h : Stuck consumed rest fault) (hne : consumed ≠ []) :
    ∃ l : Lexeme, l.Valid ∧ consumed <+: l.source := by
  cases h with
  | character | bracket => exact absurd rfl hne
  | slash => exact ⟨_, .comment (List.forall_mem_nil _), ['/'], rfl⟩
  | lineReturn => exact ⟨_, .returnLineFeed, ['\n'], rfl⟩
  | point hds hdigits =>
    have hzero : ∀ e ∈ ['0'], e.isDigit = true := List.forall_mem_singleton.mpr rfl
    exact ⟨_, .fraction hds hdigits (List.cons_ne_nil '0' []) hzero, ['0'], by simp⟩
  | @secondPoint ds es _ hds hdigits hes =>
    have hzero : ∀ e ∈ es ++ ['0'], e.isDigit = true :=
      List.forall_mem_append.mpr ⟨hes, List.forall_mem_singleton.mpr rfl⟩
    exact ⟨_, .fraction hds hdigits (List.concat_ne_nil '0' es) hzero, ['0'], by simp⟩
  | string hbody => exact ⟨_, .string hbody, ['"'], rfl⟩
  | escape hbody =>
    have hclosed := hbody.append (@StringBody.escape 'n' [] [] .nil)
    exact ⟨_, .string hclosed, ['n', '"'], by simp⟩

theorem followedBy {c : Char} (h : Stuck consumed (c :: rest) fault) (others : List Char) :
    Stuck consumed (c :: others) fault := by
  cases h with
  | character hc => exact .character hc
  | bracket hbrace hkind => exact .bracket hbrace hkind
  | slash hc => exact .slash hc
  | lineReturn hc => exact .lineReturn hc
  | point hne hds hc => exact .point hne hds hc
  | secondPoint hne hds hes => exact .secondPoint hne hds hes

end Stuck

theorem BeginsWith.exists_cut_of_stuck {cs consumed rest : List Char} {ls : List Lexeme}
    {fault : LexFault} (h : BeginsWith cs ls (consumed ++ rest))
    (hstuck : Stuck consumed rest fault) :
    ∃ more ms, Cut (ls.flatMap Lexeme.source ++ consumed ++ more) ms := by
  cases consumed with
  | nil =>
    have hls := @followedBy _ _ _ h [] nofun
    exact ⟨[], ls ++ [], by simpa using hls.cut .nil⟩
  | cons c consumed =>
    obtain ⟨l, hl, more, hmore⟩ := hstuck.starts_lexeme (List.cons_ne_nil c consumed)
    have hls := @followedBy _ _ _ h (c :: consumed ++ more) fun d hd => .inl hd
    refine ⟨more, ls ++ [l], ?_⟩
    rw [List.append_assoc]
    exact hls.cut (hmore ▸ hl.cut)

-- The scanner reads the first list and refuses the second.
inductive Breaks : List Char → List Char → LexError → Prop
  | intro {ls : List Lexeme} {consumed rest : List Char} {fault : LexFault} :
      BeginsWith (ls.flatMap Lexeme.source ++ (consumed ++ rest)) ls (consumed ++ rest) →
      Stuck consumed rest fault →
      Breaks (ls.flatMap Lexeme.source ++ consumed) rest
        ⟨fault, (endOfLexemes .origin ls).advance consumed⟩

theorem cut_or_breaks (cs : List Char) :
    (∃ ls, Cut cs ls) ∨ ∃ front rest error, cs = front ++ rest ∧ Breaks front rest error := by
  refine (cut_or_stuck cs).imp_right ?_
  rintro ⟨ls, consumed, rest, fault, hls, hstuck⟩
  obtain rfl := hls.eq_append
  exact ⟨_, rest, _, (List.append_assoc _ consumed rest).symm, .intro hls hstuck⟩

def Viable (front : String) : Prop :=
  ∃ more tokens, tokenize [] (front ++ more) = .ok tokens

namespace Breaks

variable {front rest : List Char} {error : LexError}

theorem tokenize_eq (h : Breaks front rest error) (ignored : List TokenKind) {text : String}
    (htext : text.toList = front ++ rest) : tokenize ignored text = .error error := by
  cases h with
  | intro hls hstuck =>
    rw [List.append_assoc] at htext
    rw [tokenize, Scanner.ofText, htext, Scanner.run_of_stuck ignored hls hstuck]

theorem byte_eq (h : Breaks front rest error) : error.pos.byte = byteLength front := by
  cases h with
  | intro => rw [Position.byte_advance, byte_endOfLexemes, byteLength_append, Position.origin,
      Nat.zero_add]

theorem followedBy {c : Char} (h : Breaks front (c :: rest) error) (others : List Char) :
    Breaks front (c :: others) error := by
  generalize hrest : c :: rest = cs at h
  cases h with
  | @intro ls consumed _ fault hls hstuck =>
    subst hrest
    refine .intro (hls.followedBy fun d hd => .inl ?_) (hstuck.followedBy others)
    cases consumed <;> exact hd

theorem viable (h : Breaks front rest error) : Viable (.ofList front) := by
  cases h with
  | intro hls hstuck =>
    obtain ⟨more, ms, hcut⟩ := hls.exists_cut_of_stuck hstuck
    refine ⟨.ofList more, _, @tokenize_of_cut [] _ ms ?_⟩
    rwa [← String.ofList_append, String.toList_ofList]

theorem size_le_of_viable (h : Breaks front rest error) {start back : String}
    (htext : (start ++ back).toList = front ++ rest) (hstart : Viable start) :
    start.utf8ByteSize ≤ byteLength front := by
  obtain ⟨more, tokens, hok⟩ := hstart
  rw [String.toList_append] at htext
  rw [← byteLength_toList]
  rcases List.append_eq_append_iff.mp htext with ⟨es, rfl, -⟩ | ⟨es, hes, rfl⟩
  · rw [byteLength_append]
    exact Nat.le_add_right _ _
  cases es with
  | nil => rw [hes, List.append_nil]
  | cons c es =>
    have hlonger : (start ++ more).toList = front ++ c :: (es ++ more.toList) := by simp [hes]
    have herror := (h.followedBy (es ++ more.toList)).tokenize_eq [] hlonger
    rw [hok] at herror
    cases herror

end Breaks

theorem tokenize_error_behind_viable (ignored : List TokenKind) {text : String} {error : LexError}
    (h : tokenize ignored text = .error error) :
    IsGreatest {n | ∃ front back, text = front ++ back ∧ Viable front ∧ n = front.utf8ByteSize}
        error.pos.byte ∧
      (error.pos.byte < text.utf8ByteSize →
        ∃ (front : String) (c : Char) (back : String),
          text = front.push c ++ back ∧ front.utf8ByteSize = error.pos.byte ∧
          ∀ others, tokenize ignored (front.push c ++ others) = .error error) := by
  rcases cut_or_breaks text.toList with ⟨ls, hcut⟩ | ⟨front, rest, other, htext, hbreaks⟩
  · rw [tokenize_of_cut ignored hcut] at h
    cases h
  obtain rfl : other = error :=
    Except.error.inj ((hbreaks.tokenize_eq ignored htext).symm.trans h)
  have hsize : (String.ofList front).utf8ByteSize = other.pos.byte := by
    rw [hbreaks.byte_eq, ← byteLength_toList, String.toList_ofList]
  refine ⟨⟨⟨.ofList front, .ofList rest, ?_, hbreaks.viable, hsize.symm⟩, ?_⟩, fun hlt => ?_⟩
  · rw [← String.ofList_append, ← htext, String.ofList_toList]
  · rintro n ⟨start, back, rfl, hstart, rfl⟩
    rw [hbreaks.byte_eq]
    exact hbreaks.size_le_of_viable htext hstart
  · rw [hbreaks.byte_eq, ← byteLength_toList, htext, byteLength_append] at hlt
    cases rest with
    | nil => exact absurd hlt (Nat.lt_irrefl _)
    | cons c rest =>
      refine ⟨.ofList front, c, .ofList rest, ?_, hsize, fun others => ?_⟩
      · rw [← String.toList_inj, htext]
        simp
      · exact (hbreaks.followedBy others.toList).tokenize_eq ignored (by simp)

theorem error_behind_second_point :
    tokenize [] "é 1..2" = .error ⟨.secondPoint, ⟨5, 0, 4⟩⟩ ∧
      IsGreatest
        {n | ∃ front back, "é 1..2" = front ++ back ∧ Viable front ∧ n = front.utf8ByteSize} 5 ∧
      ∃ (front : String) (c : Char) (back : String),
        "é 1..2" = front.push c ++ back ∧ front.utf8ByteSize = 5 ∧
        ∀ others, tokenize [] (front.push c ++ others) = .error ⟨.secondPoint, ⟨5, 0, 4⟩⟩ := by
  have herror : tokenize [] "é 1..2" = .error ⟨.secondPoint, ⟨5, 0, 4⟩⟩ := by decide +kernel
  obtain ⟨hgreatest, hnext⟩ := tokenize_error_behind_viable [] herror
  exact ⟨herror, hgreatest, hnext (by decide)⟩

end InterfaceSchema
