import InterfaceSchema.Proofs.Source.Scanning
import Mathlib.Data.List.Chain
import Mathlib.Data.String.Basic

namespace InterfaceSchema

theorem byte_endOfLexemes (p : Position) (ls : List Lexeme) :
    (endOfLexemes p ls).byte = p.byte + byteLength (ls.flatMap Lexeme.source) := by
  induction ls generalizing p with
  | nil => rfl
  | cons l ls ih =>
    rw [List.flatMap_cons, byteLength_append, ← Nat.add_assoc, ← Position.byte_advance]
    exact ih (p.advance l.source)

theorem byteLength_eq_utf8Len (cs : List Char) : byteLength cs = String.utf8Len cs := by
  induction cs with
  | nil => rfl
  | cons c cs ih => rw [byteLength, String.utf8Len_cons, ih, Nat.add_comm]

theorem byteLength_toList (text : String) : byteLength text.toList = text.utf8ByteSize := by
  rw [byteLength_eq_utf8Len, String.utf8Len_toList]

theorem head?_tokensFrom (p : Position) (ls : List Lexeme) :
    (tokensFrom p ls).head?.map Token.pos = some p := by
  cases ls <;> rfl

theorem isChain_tokensFrom (p : Position) (ls : List Lexeme) :
    (tokensFrom p ls).IsChain fun t u => u.pos.byte = t.pos.byte + t.len := by
  induction ls generalizing p with
  | nil => exact .singleton _
  | cons l ls ih =>
    rw [tokensFrom_cons]
    refine List.isChain_cons.mpr ⟨fun u hu => ?_, ih (p.advance l.source)⟩
    have hpos : u.pos = p.advance l.source := by
      simpa [Option.mem_def.mp hu] using head?_tokensFrom (p.advance l.source) ls
    rw [hpos]
    exact Position.byte_advance p l.source

def Token.StandsOnCharacters (t : Token) (text : String) : Prop :=
  String.Pos.Raw.IsValid text ⟨t.pos.byte⟩ ∧ String.Pos.Raw.IsValid text ⟨t.pos.byte + t.len⟩

theorem isValid_byteLength {text : String} {cs ds : List Char} (h : text.toList = cs ++ ds) :
    String.Pos.Raw.IsValid text ⟨byteLength cs⟩ := by
  refine String.Pos.Raw.isValid_iff_exists_append.mpr ⟨.ofList cs, .ofList ds, ?_, ?_⟩
  · rw [← String.ofList_append, ← h, String.ofList_toList]
  · rw [String.rawEndPos_ofList, byteLength_eq_utf8Len]

section Covered

variable {text : String} {before after : List Char} {l : Lexeme} {p : Position}

theorem Lexeme.token_standsOnCharacters (htext : text.toList = before ++ (l.source ++ after))
    (hp : p.byte = byteLength before) : (l.token p).StandsOnCharacters text := by
  have hend : p.byte + byteLength l.source = byteLength (before ++ l.source) := by
    rw [hp, byteLength_append]
  constructor
  · exact hp ▸ isValid_byteLength htext
  · exact hend ▸ isValid_byteLength (htext.trans (List.append_assoc before _ after).symm)

theorem Lexeme.sourceText_token (htext : text.toList = before ++ (l.source ++ after))
    (hp : p.byte = byteLength before) :
    (l.token p).sourceText text = String.ofList l.source := by
  have hlist : text = String.ofList (before ++ l.source ++ after) := by
    rw [List.append_assoc, ← htext, String.ofList_toList]
  rw [Token.sourceText, hlist]
  simp only [Lexeme.token, hp, byteLength_eq_utf8Len]
  exact String.extract_of_valid before l.source after

theorem map_sourceText_lexemeTokens {ls : List Lexeme}
    (htext : text.toList = before ++ ls.flatMap Lexeme.source)
    (hp : p.byte = byteLength before) :
    (lexemeTokens p ls).map (·.sourceText text) = ls.map fun l => String.ofList l.source := by
  induction ls generalizing p before with
  | nil => rfl
  | cons l ls ih =>
    rw [List.flatMap_cons] at htext
    have hnext : (p.advance l.source).byte = byteLength (before ++ l.source) := by
      rw [Position.byte_advance, hp, byteLength_append]
    rw [lexemeTokens, List.map_cons, List.map_cons, Lexeme.sourceText_token htext hp,
      ih (htext.trans (List.append_assoc before _ _).symm) hnext]

end Covered

theorem Token.sourceText_of_len_eq_zero {t : Token} (h : t.len = 0) (text : String) :
    t.sourceText text = "" := by
  simp [sourceText, String.Pos.Raw.extract, h]

theorem Cut.join_sourceText {text : String} {ls : List Lexeme} (h : Cut text.toList ls) :
    String.join ((tokensFrom .origin ls).map (·.sourceText text)) = text := by
  have htext : text.toList = [] ++ ls.flatMap Lexeme.source := h.flatMap_source.symm
  rw [tokensFrom, List.map_append, map_sourceText_lexemeTokens htext rfl, List.map_singleton,
    Token.sourceText_of_len_eq_zero rfl, ← String.toList_inj, String.toList_join]
  simp [List.flatMap_map, h.flatMap_source]

theorem Cut.lexemeTokens_cover {text : String} {ls : List Lexeme} (h : Cut text.toList ls) :
    ∀ t ∈ lexemeTokens .origin ls,
      t.kind ≠ .endOfFile ∧ 0 < t.len ∧ t.StandsOnCharacters text := by
  intro t ht
  obtain ⟨before, l, after, rfl, rfl⟩ := exists_of_mem_lexemeTokens ht
  have hl := h.valid_of_mem l (by simp)
  have htext := h.flatMap_source.symm
  rw [List.flatMap_append, List.flatMap_cons] at htext
  refine ⟨hl.kind_ne_endOfFile, ?_, Lexeme.token_standsOnCharacters htext ?_⟩
  · exact Nat.pos_of_ne_zero fun hzero => hl.source_ne_nil (eq_nil_of_byteLength_eq_zero hzero)
  · rw [byte_endOfLexemes, Position.origin, Nat.zero_add]

theorem tokenize_lossless {text : String} {tokens : List Token}
    (h : tokenize [] text = .ok tokens) :
    tokens.head?.map (·.pos.byte) = some 0 ∧
      (tokens.IsChain fun t u => u.pos.byte = t.pos.byte + t.len) ∧
      (∃ front last, tokens = front ++ [last] ∧
        (∀ t ∈ front, t.kind ≠ .endOfFile ∧ 0 < t.len ∧ t.StandsOnCharacters text) ∧
        last.kind = .endOfFile ∧ last.pos.byte = text.utf8ByteSize ∧ last.len = 0) ∧
      String.join (tokens.map (·.sourceText text)) = text := by
  obtain ⟨ls, hcut⟩ := cut_of_tokenize h
  obtain rfl : tokensFrom .origin ls = tokens := by
    have htokens := (tokenize_of_cut [] hcut).symm.trans h
    simpa using htokens
  refine ⟨?_, isChain_tokensFrom .origin ls, ⟨_, _, rfl, hcut.lexemeTokens_cover, rfl, ?_, rfl⟩,
    hcut.join_sourceText⟩
  · have hfirst := congrArg (Option.map Position.byte) (head?_tokensFrom .origin ls)
    rwa [Option.map_map] at hfirst
  · change (endOfLexemes .origin ls).byte = text.utf8ByteSize
    rw [byte_endOfLexemes, hcut.flatMap_source, byteLength_toList, Position.origin, Nat.zero_add]

theorem lossless_of_word_and_string :
    ∃ tokens, tokenize [] "é \"\\n\"" = .ok tokens ∧
      tokens.map (fun t => (t.pos.byte, t.len)) = [(0, 2), (2, 1), (3, 4), (7, 0)] ∧
      String.join (tokens.map (·.sourceText "é \"\\n\"")) = "é \"\\n\"" := by
  have htokens : tokenize [] "é \"\\n\"" =
      .ok [⟨.identifier, "é", ⟨0, 0, 0⟩, 2⟩, ⟨.space, " ", ⟨2, 0, 1⟩, 1⟩,
        ⟨.stringValue, "\n", ⟨3, 0, 2⟩, 4⟩, ⟨.endOfFile, "", ⟨7, 0, 6⟩, 0⟩] := by decide +kernel
  obtain ⟨-, -, -, hjoin⟩ := tokenize_lossless htokens
  exact ⟨_, htokens, rfl, hjoin⟩

end InterfaceSchema
