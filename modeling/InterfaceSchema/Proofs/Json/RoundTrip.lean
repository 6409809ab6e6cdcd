import InterfaceSchema.Json.Printer
import InterfaceSchema.Json.Record
import Mathlib.Data.List.Basic

namespace InterfaceSchema.Json

inductive Escaped (c : Char) : List Char → Prop
  | short {mark : Char} (hmark : mark ≠ 'u') (hvalue : escapeValue? mark = some c) :
      Escaped c ['\\', mark]
  | unit (hcontrol : c.toNat < 0x20) :
      Escaped c ['\\', 'u', '0', '0', hexDigit (c.toNat / 16), hexDigit (c.toNat % 16)]
  | plain (hquote : c ≠ '"') (hslash : c ≠ '\\') (hprintable : ¬ c.toNat < 0x20) :
      Escaped c [c]

theorem escaped_escapeChar (c : Char) : Escaped c (escapeChar c) := by
  unfold escapeChar
  split_ifs with hquote hslash hb hf hn hr ht hcontrol
  · subst hquote; exact .short (by decide) rfl
  · subst hslash; exact .short (by decide) rfl
  · subst hb; exact .short (by decide) rfl
  · subst hf; exact .short (by decide) rfl
  · subst hn; exact .short (by decide) rfl
  · subst hr; exact .short (by decide) rfl
  · subst ht; exact .short (by decide) rfl
  · exact .unit hcontrol
  · exact .plain hquote hslash hcontrol

theorem hexValue?_hexDigit : ∀ n < 16, hexValue? (hexDigit n) = some n := by
  decide

theorem hexUnit?_control {n : Nat} (h : n < 0x20) :
    hexUnit? '0' '0' (hexDigit (n / 16)) (hexDigit (n % 16)) = some n := by
  have hzero : hexValue? '0' = some 0 := rfl
  rw [hexUnit?, hzero, hexValue?_hexDigit (n / 16) (by omega),
    hexValue?_hexDigit (n % 16) (Nat.mod_lt n (by decide))]
  exact congrArg some (by omega)

theorem Escaped.unescapeOnto {c : Char} {written : List Char} (h : Escaped c written)
    (read rest : List Char) :
    unescapeOnto read (written ++ rest) = unescapeOnto (c :: read) rest := by
  cases h with
  | short hmark hvalue => simp [Json.unescapeOnto, hmark, hvalue]
  | unit hcontrol =>
    have hhigh : isHighSurrogate c.toNat = false := by simp [isHighSurrogate]; omega
    have hlow : isLowSurrogate c.toNat = false := by simp [isLowSurrogate]; omega
    simp [Json.unescapeOnto, hexUnit?_control hcontrol, hhigh, hlow]
  | plain hquote hslash hprintable => simp [Json.unescapeOnto, hquote, hslash, hprintable]

theorem unescapeOnto_flatMap (cs read : List Char) :
    unescapeOnto read (cs.flatMap escapeChar) = some (read.reverse ++ cs) := by
  induction cs generalizing read with
  | nil => simp [unescapeOnto]
  | cons c cs ih =>
    rw [List.flatMap_cons, (escaped_escapeChar c).unescapeOnto, ih, List.reverse_cons,
      List.append_assoc, List.singleton_append]

theorem unescape?_escape (s : String) : unescape? (escape s) = some s := by
  rw [unescape?, escape, String.toList_ofList, unescapeOnto_flatMap, Option.map_some,
    List.reverse_nil, List.nil_append, String.ofList_toList]

theorem Escaped.lexemesOnto {c : Char} {written : List Char} (h : Escaped c written)
    (read : List Lexeme) (inside rest : List Char) :
    lexemesOnto read (.string inside) (written ++ rest) =
      lexemesOnto read (.string (written.reverse ++ inside)) rest := by
  cases h with
  | short hmark hvalue =>
    simp [Json.lexemesOnto, LexemeMode.step?, hmark, hvalue]
  | unit hcontrol =>
    have hzero : isHexDigit '0' = true := rfl
    have hhigh : isHexDigit (hexDigit (c.toNat / 16)) = true := by
      rw [isHexDigit, hexValue?_hexDigit _ (by omega), Option.isSome_some]
    have hlow : isHexDigit (hexDigit (c.toNat % 16)) = true := by
      rw [isHexDigit, hexValue?_hexDigit _ (by omega), Option.isSome_some]
    simp [Json.lexemesOnto, LexemeMode.step?, hzero, hhigh, hlow]
  | plain hquote hslash hprintable =>
    simp [Json.lexemesOnto, LexemeMode.step?, hquote, hslash, hprintable]

theorem lexemesOnto_flatMap (cs : List Char) (read : List Lexeme) (inside rest : List Char) :
    lexemesOnto read (.string inside) (cs.flatMap escapeChar ++ rest) =
      lexemesOnto read (.string ((cs.flatMap escapeChar).reverse ++ inside)) rest := by
  induction cs generalizing inside with
  | nil => rfl
  | cons c cs ih =>
    rw [List.flatMap_cons, List.append_assoc, (escaped_escapeChar c).lexemesOnto, ih,
      List.reverse_append, List.append_assoc]

-- Read between lexemes, the text gives the lexemes and ends between lexemes again.
def Spells (text : String) (lexemes : List Lexeme) : Prop :=
  ∀ read rest, lexemesOnto read .between (text.toList ++ rest) =
    lexemesOnto (lexemes.reverse ++ read) .between rest

namespace Spells

variable {text more : String} {lexemes : List Lexeme}

theorem empty : Spells "" [] :=
  fun _ _ => rfl

theorem append {others : List Lexeme} (h : Spells text lexemes) (hmore : Spells more others) :
    Spells (text ++ more) (lexemes ++ others) := by
  intro read rest
  rw [String.toList_append, List.append_assoc, h, hmore, List.reverse_append, List.append_assoc]

theorem append_blank (h : Spells text lexemes) (hmore : Spells more []) :
    Spells (text ++ more) lexemes :=
  List.append_nil lexemes ▸ h.append hmore

theorem newLine (level : Nat) : Spells (newLine level) [] := by
  intro read rest
  rw [Json.newLine, String.toList_ofList]
  change lexemesOnto read .between (List.replicate (2 * level) ' ' ++ rest) = _
  induction 2 * level with
  | zero => rfl
  | succ n ih => exact ih

theorem literalText (s : String) : Spells (literalText (escape s)) [.string (escape s)] := by
  intro read rest
  have hquotes : (Json.literalText (escape s)).toList ++ rest =
      '"' :: (s.toList.flatMap escapeChar ++ '"' :: rest) := by
    simp [Json.literalText, escape]
  have hstart : lexemesOnto read .between ('"' :: (s.toList.flatMap escapeChar ++ '"' :: rest)) =
      lexemesOnto read (.string []) (s.toList.flatMap escapeChar ++ '"' :: rest) := rfl
  rw [hquotes, hstart, lexemesOnto_flatMap]
  simp [lexemesOnto, LexemeMode.step?, escape]

end Spells

mutual

def lexemes : Json → List Lexeme
  | .null => [.null]
  | .bool value => [.bool value]
  | .number literal => [.number literal]
  | .string literal => [.string literal]
  | .array [] => [.arrayStart, .arrayEnd]
  | .array (item :: rest) => .arrayStart :: (item.lexemes ++ lexemesOfItems rest ++ [.arrayEnd])
  | .object [] => [.objectStart, .objectEnd]
  | .object ((key, value) :: rest) =>
      .objectStart :: .string key :: .colon ::
        (value.lexemes ++ lexemesOfFields rest ++ [.objectEnd])

-- As in the printer, the items and the fields here are those after the first.
def lexemesOfItems : List Json → List Lexeme
  | [] => []
  | item :: rest => .comma :: (item.lexemes ++ lexemesOfItems rest)

def lexemesOfFields : List (String × Json) → List Lexeme
  | [] => []
  | (key, value) :: rest =>
      .comma :: .string key :: .colon :: (value.lexemes ++ lexemesOfFields rest)

end

inductive Textual : Json → Prop
  | text (s : String) : Textual (ofText s)
  | array {items : List Json} : (∀ item ∈ items, Textual item) → Textual (.array items)
  | fields {fields : List (String × Json)} :
      (∀ field ∈ fields, Textual field.2) → Textual (ofFields fields)

def PrintsLexemes (document : Json) : Prop :=
  ∀ (level : Nat) {out : String} {before : List Lexeme}, Spells out before →
    Spells (prettyOnto level out document) (before ++ document.lexemes)

theorem spells_prettyItems {items : List Json} (h : ∀ item ∈ items, item.PrintsLexemes)
    (level : Nat) {out : String} {before : List Lexeme} (hout : Spells out before) :
    Spells (prettyItems level out items) (before ++ lexemesOfItems items) := by
  induction items generalizing out before with
  | nil => simpa [prettyItems, lexemesOfItems] using hout
  | cons item items ih =>
    obtain ⟨hitem, hitems⟩ := List.forall_mem_cons.mp h
    have hcomma : Spells (out ++ "," ++ newLine level) (before ++ [.comma]) :=
      (hout.append fun _ _ => rfl).append_blank (.newLine level)
    simpa [prettyItems, lexemesOfItems] using ih hitems (hitem level hcomma)

theorem spells_prettyFields {fields : List (String × Json)}
    (h : ∀ field ∈ fields, field.2.PrintsLexemes) (level : Nat) {out : String}
    {before : List Lexeme} (hout : Spells out before) :
    Spells (prettyFields level out (fields.map fun field => (escape field.1, field.2)))
      (before ++ lexemesOfFields (fields.map fun field => (escape field.1, field.2))) := by
  induction fields generalizing out before with
  | nil => simpa [prettyFields, lexemesOfFields] using hout
  | cons field fields ih =>
    obtain ⟨hfield, hfields⟩ := List.forall_mem_cons.mp h
    have hcomma : Spells (out ++ "," ++ newLine level) (before ++ [.comma]) :=
      (hout.append fun _ _ => rfl).append_blank (.newLine level)
    have hkey : Spells (out ++ "," ++ newLine level ++ literalText (escape field.1) ++ ": ")
        (before ++ [.comma] ++ [.string (escape field.1)] ++ [.colon]) :=
      (hcomma.append (.literalText field.1)).append fun _ _ => rfl
    simpa [prettyFields, lexemesOfFields] using ih hfields (hfield level hkey)

theorem Textual.printsLexemes {document : Json} (h : document.Textual) :
    document.PrintsLexemes := by
  induction h with
  | text s =>
    intro level out before hout
    simpa [ofText, prettyOnto, lexemes] using hout.append (.literalText s)
  | @array items _ ih =>
    intro level out before hout
    cases items with
    | nil => exact hout.append fun _ _ => rfl
    | cons item items =>
      obtain ⟨hitem, hitems⟩ := List.forall_mem_cons.mp ih
      have hopen : Spells (out ++ "[" ++ newLine (level + 1)) (before ++ [.arrayStart]) :=
        (hout.append fun _ _ => rfl).append_blank (.newLine (level + 1))
      have hinside := spells_prettyItems hitems (level + 1) (hitem (level + 1) hopen)
      have hclosed := (hinside.append_blank (.newLine level)).append
        (show Spells "]" [.arrayEnd] from fun _ _ => rfl)
      simpa [prettyOnto, lexemes] using hclosed
  | @fields fields _ ih =>
    intro level out before hout
    cases fields with
    | nil => exact hout.append fun _ _ => rfl
    | cons field fields =>
      obtain ⟨hfield, hfields⟩ := List.forall_mem_cons.mp ih
      have hopen : Spells (out ++ "\x7b" ++ newLine (level + 1)) (before ++ [.objectStart]) :=
        (hout.append fun _ _ => rfl).append_blank (.newLine (level + 1))
      have hkey : Spells
          (out ++ "\x7b" ++ newLine (level + 1) ++ literalText (escape field.1) ++ ": ")
          (before ++ [.objectStart] ++ [.string (escape field.1)] ++ [.colon]) :=
        (hopen.append (.literalText field.1)).append fun _ _ => rfl
      have hinside := spells_prettyFields hfields (level + 1) (hfield (level + 1) hkey)
      have hclosed := (hinside.append_blank (.newLine level)).append
        (show Spells "\x7d" [.objectEnd] from fun _ _ => rfl)
      simpa [ofFields, prettyOnto, lexemes] using hclosed

theorem lexemes?_pretty {document : Json} (h : document.Textual) :
    lexemes? document.pretty = some document.lexemes := by
  have hspelled := h.printsLexemes 0 Spells.empty [] []
  simpa [lexemes?, pretty, lexemesOnto, LexemeMode.finish?] using hspelled

namespace Reader

-- An item of an array starts with a lexeme that does not end the array.
theorem run?_firstItem (item : Json) (stack : List Frame) (rest : List Lexeme) :
    run? ⟨stack, .firstItem⟩ (item.lexemes ++ rest) =
      run? ⟨.array [] :: stack, .value⟩ (item.lexemes ++ rest) := by
  cases item with
  | array items => cases items <;> rfl
  | object fields => cases fields <;> rfl
  | _ => rfl

-- The stack is left as it was: a document is read whole, whatever is open around it.
mutual

theorem run?_lexemes (document : Json) (stack : List Frame) (rest : List Lexeme) :
    run? ⟨stack, .value⟩ (document.lexemes ++ rest) = run? ⟨stack, .done document⟩ rest := by
  match document with
  | .null => rfl
  | .bool value => rfl
  | .number literal => rfl
  | .string literal => rfl
  | .array [] => rfl
  | .array (item :: items) =>
    have hfirst := run?_lexemes item (.array [] :: stack)
      (lexemesOfItems items ++ .arrayEnd :: rest)
    have hitems := run?_lexemesOfItems items item [] stack rest
    calc run? ⟨stack, .value⟩ ((Json.array (item :: items)).lexemes ++ rest)
      _ = run? ⟨stack, .firstItem⟩
            (item.lexemes ++ (lexemesOfItems items ++ .arrayEnd :: rest)) := by
          simp [lexemes, run?, step?, startValue?]
      _ = run? ⟨stack, .done (.array (item :: items))⟩ rest := by
          rw [run?_firstItem, hfirst, hitems]
          rfl
  | .object [] => rfl
  | .object ((key, value) :: fields) =>
    have hfirst := run?_lexemes value (.object [] key :: stack)
      (lexemesOfFields fields ++ .objectEnd :: rest)
    have hfields := run?_lexemesOfFields fields key value [] stack rest
    calc run? ⟨stack, .value⟩ ((Json.object ((key, value) :: fields)).lexemes ++ rest)
      _ = run? ⟨.object [] key :: stack, .value⟩
            (value.lexemes ++ (lexemesOfFields fields ++ .objectEnd :: rest)) := by
          simp [lexemes, run?, step?, startValue?]
      _ = run? ⟨stack, .done (.object ((key, value) :: fields))⟩ rest := by
          rw [hfirst, hfields]
          rfl

theorem run?_lexemesOfItems (items : List Json) (value : Json) (read : List Json)
    (stack : List Frame) (rest : List Lexeme) :
    run? ⟨.array read :: stack, .done value⟩ (lexemesOfItems items ++ .arrayEnd :: rest) =
      run? ⟨stack, .done (.array (read.reverse ++ value :: items))⟩ rest := by
  match items with
  | [] => simp [lexemesOfItems, run?, step?, afterValue?]
  | item :: items =>
    have hitem := run?_lexemes item (.array (value :: read) :: stack)
      (lexemesOfItems items ++ .arrayEnd :: rest)
    have hitems := run?_lexemesOfItems items item (value :: read) stack rest
    simp [lexemesOfItems, run?, step?, afterValue?, hitem, hitems]

theorem run?_lexemesOfFields (fields : List (String × Json)) (key : String) (value : Json)
    (read : List (String × Json)) (stack : List Frame) (rest : List Lexeme) :
    run? ⟨.object read key :: stack, .done value⟩
        (lexemesOfFields fields ++ .objectEnd :: rest) =
      run? ⟨stack, .done (.object (read.reverse ++ (key, value) :: fields))⟩ rest := by
  match fields with
  | [] => simp [lexemesOfFields, run?, step?, afterValue?]
  | (next, item) :: fields =>
    have hitem := run?_lexemes item (.object ((key, value) :: read) next :: stack)
      (lexemesOfFields fields ++ .objectEnd :: rest)
    have hfields := run?_lexemesOfFields fields next item ((key, value) :: read) stack rest
    simp [lexemesOfFields, run?, step?, afterValue?, hitem, hfields]

end

end Reader

theorem parse?_pretty {document : Json} (h : document.Textual) :
    parse? document.pretty = some document := by
  have hrun := Reader.run?_lexemes document [] []
  rw [List.append_nil] at hrun
  rw [parse?, lexemes?_pretty h, Option.bind_some, Reader.initial, hrun]
  rfl

theorem namedFields?_ofFields (fields : List (String × Json)) :
    namedFields? (fields.map fun field => (escape field.1, field.2)) = some fields := by
  induction fields with
  | nil => rfl
  | cons field fields ih =>
    rw [namedFields?] at ih
    simp [namedFields?, List.mapM_cons, unescape?_escape, ih]

theorem text?_ofText (s : String) : (ofText s).text? = some s :=
  unescape?_escape s

theorem textual_ofTexts (texts : List String) : (ofTexts texts).Textual :=
  .array (List.forall_mem_map.mpr fun s _ => .text s)

end InterfaceSchema.Json
