import InterfaceSchema.Proofs.Compilation.Shape

namespace InterfaceSchema

-- The characters write tokens in `P`, and `rest` is left.
def WritesUpTo (rest cs : List Char) (P : List Token → Prop) : Prop :=
  ∃ ls, BeginsWith cs ls rest ∧ ∀ p, P (significant p ls)

theorem TokenKind.endsBefore_cons {kind : TokenKind} {c : Char} (h : kind.goesOnWith c = false)
    (cs : List Char) : kind.EndsBefore (c :: cs) :=
  fun _ hd => Option.some.inj hd ▸ h

theorem endsBefore_blank (cs : List Char) : TokenKind.identifier.EndsBefore (' ' :: cs) :=
  TokenKind.endsBefore_cons (by decide +kernel) cs

theorem not_mem_layout_of_bracketKind? {c : Char} {kind : TokenKind}
    (h : bracketKind? c = some kind) : kind ∉ TokenKind.layout := by
  unfold bracketKind? at h
  repeat' split at h
  all_goals cases h
  all_goals decide

theorem not_mem_layout_wordKindOf (cs : List Char) : wordKindOf cs ∉ TokenKind.layout := by
  unfold wordKindOf
  split <;> decide

theorem isName_wordKindOf (cs : List Char) : (wordKindOf cs).isName = true := by
  unfold wordKindOf
  split <;> rfl

namespace WritesUpTo

variable {rest cs ds : List Char} {P Q R : List Token → Prop}

theorem nil (h : P []) : WritesUpTo rest rest P :=
  ⟨[], .nil, fun _ => h⟩

theorem append (h : WritesUpTo ds cs P) (h' : WritesUpTo rest ds Q)
    (hR : ∀ {ts us}, P ts → Q us → R (ts ++ us)) : WritesUpTo rest cs R := by
  obtain ⟨ls, hls, hP⟩ := h
  obtain ⟨ms, hms, hQ⟩ := h'
  refine ⟨ls ++ ms, hls.append hms, fun p => ?_⟩
  rw [significant_append]
  exact hR (hP p) (hQ _)

theorem lexeme {l : Lexeme} (hl : l.Valid) (hends : l.kind.EndsBefore cs)
    (hkind : l.kind ∉ TokenKind.layout) (h : WritesUpTo rest cs P)
    (hQ : ∀ {t ts}, t.kind = l.kind → t.value = String.ofList l.value → P ts → Q (t :: ts)) :
    WritesUpTo rest (l.source ++ cs) Q := by
  obtain ⟨ls, hls, hP⟩ := h
  refine ⟨l :: ls, .cons hl hends hls, fun p => ?_⟩
  have hfirst : significant p (l :: ls) = l.token p :: significant (p.advance l.source) ls :=
    List.filter_cons_of_pos (by simpa [Lexeme.token] using hkind)
  rw [hfirst]
  exact hQ rfl rfl (hP _)

theorem blank (hends : TokenKind.space.EndsBefore cs) (h : WritesUpTo rest cs P) :
    WritesUpTo rest (' ' :: cs) P := by
  obtain ⟨ls, hls, hP⟩ := h
  have hvalid : Lexeme.Valid ⟨.space, [' '], [' ']⟩ := .space (by simp) (by simp; decide)
  exact ⟨_ :: ls, .cons hvalid hends hls, fun p => hP _⟩

theorem bracket {c : Char} {kind : TokenKind} (hc : bracketKind? c = some kind)
    (h : WritesUpTo rest cs P) (hQ : ∀ {t ts}, t.kind = kind → P ts → Q (t :: ts)) :
    WritesUpTo rest (c :: cs) Q :=
  lexeme (.bracket hc) (fun d _ => goesOnWith_of_bracketKind? hc d)
    (not_mem_layout_of_bracketKind? hc) h fun ht _ => hQ ht

theorem comma (h : WritesUpTo rest cs P)
    (hQ : ∀ {t ts}, t.kind = .separator → P ts → Q (t :: ts)) : WritesUpTo rest (',' :: cs) Q :=
  lexeme .separator (fun _ _ => rfl) (by decide) h fun ht _ => hQ ht

theorem word {name : String} (hname : Word name) (hends : TokenKind.identifier.EndsBefore cs)
    (h : WritesUpTo rest cs P)
    (hQ : ∀ {t ts}, t.kind = wordKindOf name.toList → t.value = name → P ts → Q (t :: ts)) :
    WritesUpTo rest (name.toList ++ cs) Q := by
  obtain ⟨c, cs, rfl, hstart, hparts⟩ := hname
  rw [String.toList_ofList] at hQ ⊢
  exact lexeme (.word hstart hparts) (fun d hd => (goesOnWith_wordKindOf _ d).trans (hends d hd))
    (not_mem_layout_wordKindOf _) h hQ

theorem name {name : String} (hname : Word name) (hends : TokenKind.identifier.EndsBefore rest) :
    WritesUpTo rest (name.toList ++ rest) (Grammar.Mention · ⟨name, []⟩) := by
  refine word (P := (· = [])) hname hends (nil rfl) ?_
  rintro n _ hn rfl rfl
  exact .name (hn ▸ isName_wordKindOf _)

theorem bracketed {a b : Char} {first last : TokenKind} (ha : bracketKind? a = some first)
    (hb : bracketKind? b = some last) (h : WritesUpTo (b :: rest) cs P) :
    WritesUpTo rest (a :: cs) fun ts =>
      ∃ o us c, ts = o :: (us ++ [c]) ∧ o.kind = first ∧ P us ∧ c.kind = last := by
  have hlast : WritesUpTo rest (b :: rest) fun ts => ∃ c, ts = [c] ∧ c.kind = last := by
    refine bracket (P := (· = [])) hb (nil rfl) ?_
    rintro c _ hc rfl
    exact ⟨c, rfl, hc⟩
  have hinner : WritesUpTo rest cs fun ts => ∃ us c, ts = us ++ [c] ∧ P us ∧ c.kind = last := by
    refine h.append hlast ?_
    rintro us _ hus ⟨c, rfl, hc⟩
    exact ⟨us, c, rfl, hus, hc⟩
  refine bracket ha hinner ?_
  rintro o _ ho ⟨us, c, rfl, hus, hc⟩
  exact ⟨o, us, c, rfl, ho, hus, hc⟩

theorem applied {name : String} {arguments : List TypeRef} (hname : Word name)
    (h : WritesUpTo ('>' :: rest) cs (Grammar.Arguments · arguments)) :
    WritesUpTo rest (name.toList ++ '<' :: cs) (Grammar.Mention · ⟨name, arguments⟩) := by
  refine word hname (TokenKind.endsBefore_cons (by decide +kernel) _) (bracketed rfl rfl h) ?_
  rintro n _ hn rfl ⟨o, us, c, rfl, ho, harguments, hc⟩
  exact .applied (hn ▸ isName_wordKindOf _) ho harguments hc

end WritesUpTo

-- What follows the first of the arguments.
def Grammar.MoreArguments (us : List Token) (types : List TypeRef) : Prop :=
  ∀ {ts first}, Mention ts first → Arguments (ts ++ us) (first :: types)

namespace TypeRef

theorem endsBefore_textOfRest (types : List TypeRef) {rest : List Char}
    (h : TokenKind.identifier.EndsBefore rest) :
    TokenKind.identifier.EndsBefore ((textOfRest types).toList ++ rest) := by
  cases types with
  | nil => exact h
  | cons type types =>
    rw [textOfRest, String.toList_append, String.toList_append]
    exact TokenKind.endsBefore_cons (by decide +kernel) _

mutual

theorem writesUpTo_text (type : TypeRef) (h : type.Worded) {rest : List Char}
    (hends : TokenKind.identifier.EndsBefore rest) :
    WritesUpTo rest (type.text.toList ++ rest) (Grammar.Mention · type) := by
  obtain ⟨name, arguments⟩ := type
  have hname := h name (name_mem_names name arguments)
  cases arguments with
  | nil =>
    rw [text]
    exact .name hname hends
  | cons first others =>
    have hclose : TokenKind.identifier.EndsBefore ('>' :: rest) :=
      TokenKind.endsBefore_cons (by decide +kernel) rest
    have hfirst := writesUpTo_text first
      (fun n hn => h n (by simp [names, namesAll, hn])) (endsBefore_textOfRest others hclose)
    have hothers := writesUpTo_textOfRest others
      (fun n hn => h n (by simp [names, namesAll, hn])) hclose
    have htext : (text ⟨name, first :: others⟩).toList ++ rest = name.toList ++ '<' ::
        (first.text.toList ++ ((textOfRest others).toList ++ '>' :: rest)) := by
      simp [text]
    rw [htext]
    exact .applied hname (hfirst.append hothers fun hmention hmore => hmore hmention)

theorem writesUpTo_textOfRest (types : List TypeRef) (h : ∀ name ∈ namesAll types, Word name)
    {rest : List Char} (hends : TokenKind.identifier.EndsBefore rest) :
    WritesUpTo rest ((textOfRest types).toList ++ rest) (Grammar.MoreArguments · types) := by
  cases types with
  | nil =>
    refine .nil fun {ts first} hfirst => ?_
    rw [List.append_nil]
    exact .one hfirst
  | cons type types =>
    have htype := writesUpTo_text type
      (fun n hn => h n (by simp [namesAll, hn])) (endsBefore_textOfRest types hends)
    have htypes := writesUpTo_textOfRest types (fun n hn => h n (by simp [namesAll, hn])) hends
    have hmore : WritesUpTo rest _ (Grammar.Arguments · (type :: types)) :=
      htype.append htypes fun hmention hmore => hmore hmention
    have htext : (textOfRest (type :: types)).toList ++ rest =
        ',' :: (type.text.toList ++ ((textOfRest types).toList ++ rest)) := by
      simp [textOfRest]
    rw [htext]
    refine .comma hmore ?_
    intro s us hs harguments ts first hfirst
    exact .more hfirst hs harguments

end

end TypeRef

theorem Word.endsBefore_space {name : String} (h : Word name) (rest : List Char) :
    TokenKind.space.EndsBefore (name.toList ++ rest) := by
  obtain ⟨c, cs, rfl, hstart, -⟩ := h
  have hspace : TokenKind.space.goesOnWith c = false := by
    rw [Bool.eq_false_iff]
    intro hspace
    cases (Mode.ofFirst?_of_isSpace hspace).symm.trans (Mode.ofFirst?_of_isWordStart hstart)
  rw [String.toList_ofList]
  exact TokenKind.endsBefore_cons hspace _

theorem TypeRef.Worded.endsBefore_space {type : TypeRef} (h : type.Worded) (rest : List Char) :
    TokenKind.space.EndsBefore (type.text.toList ++ rest) := by
  obtain ⟨name, arguments⟩ := type
  have hname := h name (name_mem_names name arguments)
  cases arguments with
  | nil =>
    rw [text]
    exact hname.endsBefore_space rest
  | cons first others =>
    simp only [text, String.toList_append, List.append_assoc]
    exact hname.endsBefore_space _

namespace WritesUpTo

variable {rest cs : List Char} {name : String}

theorem property {type : TypeRef} (htype : type.Worded) (hname : Word name)
    (hends : TokenKind.space.EndsBefore rest) :
    WritesUpTo rest (' ' :: (type.text.toList ++ ' ' :: (name.toList ++ ' ' :: rest)))
      (Grammar.Properties · [⟨name, type⟩]) := by
  have hlast : WritesUpTo rest (' ' :: (name.toList ++ ' ' :: rest)) fun ts =>
      ∃ n, ts = [n] ∧ n.kind.isName ∧ n.value = name := by
    refine blank (hname.endsBefore_space _)
      (word (P := (· = [])) hname (endsBefore_blank rest) (blank hends (nil rfl)) ?_)
    rintro n _ hn hvalue rfl
    exact ⟨n, rfl, hn ▸ isName_wordKindOf _, hvalue⟩
  refine blank (htype.endsBefore_space _)
    ((type.writesUpTo_text htype (endsBefore_blank _)).append hlast ?_)
  rintro us _ hmention ⟨n, rfl, hn, rfl⟩
  exact .more hmention hn .nil

theorem record {properties : List Property} (hname : Word name)
    (hkind : wordKindOf name.toList = .identifier)
    (h : WritesUpTo ('\x7d' :: rest) cs (Grammar.Properties · properties)) :
    WritesUpTo rest ("type".toList ++ ' ' :: (name.toList ++ ' ' :: '\x7b' :: cs))
      (Grammar.Definition · (.type name properties)) := by
  have hkeyword : Word "type" := ⟨'t', ['y', 'p', 'e'], rfl, by decide +kernel,
    List.all_eq_true.mp (by decide +kernel)⟩
  have hannounced : wordKindOf "type".toList = .keyword := by decide +kernel
  have hblock : WritesUpTo rest (' ' :: (name.toList ++ ' ' :: '\x7b' :: cs)) fun ts =>
      ∀ {k}, Grammar.Announces k "type" →
        Grammar.Definition (k :: ts) (.type name properties) := by
    refine blank (hname.endsBefore_space _) (word hname (endsBefore_blank _)
      (blank (TokenKind.endsBefore_cons (by decide +kernel) _) (bracketed rfl rfl h)) ?_)
    rintro n _ hn rfl ⟨o, us, c, rfl, ho, hproperties, hc⟩ k hk
    exact .type hk (hn.trans hkind) ho hproperties hc
  refine word hkeyword (endsBefore_blank _) hblock ?_
  intro k ts hk hvalue hts
  exact hts ⟨hk.trans hannounced, hvalue⟩

end WritesUpTo

def propertyText (mention : String) : String :=
  "type T \x7b " ++ mention ++ " x \x7d"

theorem writes_propertyText {type : TypeRef} (h : type.Worded) :
    Writes (propertyText type.text).toList [.type "T" [⟨"x", type⟩]] := by
  have hT : Word "T" := ⟨'T', [], rfl, by decide +kernel, nofun⟩
  have hx : Word "x" := ⟨'x', [], rfl, by decide +kernel, nofun⟩
  have hproperty : WritesUpTo ['\x7d'] _ (Grammar.Properties · [⟨"x", type⟩]) :=
    .property h hx (TokenKind.endsBefore_cons (by decide +kernel) [])
  obtain ⟨ls, hls, hrecord⟩ := WritesUpTo.record hT (by decide +kernel) hproperty
  have htext : (propertyText type.text).toList = "type".toList ++ ' ' :: ("T".toList ++ ' ' ::
      '\x7b' :: ' ' :: (type.text.toList ++ ' ' :: ("x".toList ++ ' ' :: ['\x7d']))) := by
    simp [propertyText]
  rw [htext]
  refine ⟨ls, List.append_nil ls ▸ hls.cut .nil, fun p => ?_⟩
  exact List.append_nil (significant p ls) ▸ .more (hrecord p) .nil

theorem propertyAt?_propertyText {type : TypeRef} (h : type.Fits 0) :
    ∃ ns, (parseSource (propertyText type.text)).value = .ok ns ∧
      ns.propertyAt? [] "T" "x" = some ⟨"x", type⟩ := by
  have hitems : Item.Admissible 0 [.type "T" [⟨"x", type⟩]] := by
    refine ⟨List.nodup_nil, ⟨List.nodup_singleton "x", trivial⟩, ?_⟩
    simpa [Item.depthAll, Item.depth, TypeRef.depthAll] using h.2
  exact ⟨_, parseSource_of_writes (writes_propertyText h.1) hitems, rfl⟩

namespace TypeRef

inductive PartOf (part : TypeRef) : TypeRef → Prop
  | whole : PartOf part part
  | argument {name : String} {arguments : List TypeRef} {argument : TypeRef} :
      argument ∈ arguments → PartOf part argument → PartOf part ⟨name, arguments⟩

theorem PartOf.names_subset {part type : TypeRef} (h : part.PartOf type) :
    part.names ⊆ type.names := by
  induction h with
  | whole => exact List.Subset.refl _
  | argument hmem _ ih => exact List.Subset.trans ih (names_subset_of_mem hmem)

theorem PartOf.depth_le {part type : TypeRef} (h : part.PartOf type) :
    part.depth ≤ type.depth := by
  induction h with
  | whole => exact Nat.le_refl _
  | @argument name arguments argument hmem _ ih =>
    have hle := depth_le_depthAll hmem
    rw [depth_of_ne_nil name (List.ne_nil_of_mem hmem)]
    omega

end TypeRef

namespace Namespace

def Holds (ns : Namespace) (type : TypeRef) : Prop :=
  ∃ path scope mention, ns.scopeAt? path = some scope ∧ scope.Mentions mention ∧
    type.PartOf mention

theorem Holds.fits {text : String} {ns : Namespace} {type : TypeRef} (h : ns.Holds type)
    (hparse : (parseSource text).value = .ok ns) : type.Fits 0 := by
  obtain ⟨path, scope, mention, hscope, hmentions, hpart⟩ := h
  have htitled := (Everywhere.of_scopeAt? (titled_of_parseSource hparse) hscope).here
  have hshaped := shapedFrom_of_parseSource hparse path scope hscope
  obtain ⟨items, -, -, rfl⟩ := writes_of_parseSource hparse
  have hsound := (Everywhere.of_scopeAt? (sound_declareAll items sound_root) hscope).here
  obtain ⟨hworded, hdepth⟩ := (Lawful.of_shaped htitled hsound hshaped).mentions mention hmentions
  have hle := hpart.depth_le
  exact ⟨fun name hname => hworded name (hpart.names_subset hname), by omega⟩

end Namespace

theorem parseSource_propertyText {text : String} {ns : Namespace} {type : TypeRef}
    (h : (parseSource text).value = .ok ns) (htype : ns.Holds type) :
    ∃ parsed, (parseSource (propertyText type.text)).value = .ok parsed ∧
      parsed.propertyAt? [] "T" "x" = some ⟨"x", type⟩ :=
  propertyAt?_propertyText (htype.fits h)

theorem argument_read_back :
    ∃ ns, (parseSource "namespace a\x7brpc f(map<rpc, list<list<enum>>>) -\x7d").value = .ok ns ∧
      ns.Holds ⟨"list", [⟨"list", [⟨"enum", []⟩]⟩]⟩ ∧
      ∃ parsed, (parseSource "type T \x7b list<list<enum>> x \x7d").value = .ok parsed ∧
        parsed.propertyAt? [] "T" "x" = some ⟨"x", ⟨"list", [⟨"list", [⟨"enum", []⟩]⟩]⟩⟩ := by
  have hparse : (parseSource "namespace a\x7brpc f(map<rpc, list<list<enum>>>) -\x7d").value =
      .ok (Namespace.root.declareAll [.scope "a" [.rpc "f" [⟨"map", [⟨"rpc", []⟩,
        ⟨"list", [⟨"list", [⟨"enum", []⟩]⟩]⟩]⟩] ⟨"-", []⟩]]) := by decide +kernel
  have hholds : (Namespace.root.declareAll [.scope "a" [.rpc "f" [⟨"map", [⟨"rpc", []⟩,
      ⟨"list", [⟨"list", [⟨"enum", []⟩]⟩]⟩]⟩] ⟨"-", []⟩]]).Holds
        ⟨"list", [⟨"list", [⟨"enum", []⟩]⟩]⟩ :=
    ⟨["a"], _, _, rfl, .inr ⟨_, List.mem_singleton_self _, .inl (List.mem_singleton_self _)⟩,
      .argument (List.mem_cons_of_mem _ List.mem_cons_self) .whole⟩
  have htext : propertyText (TypeRef.text ⟨"list", [⟨"list", [⟨"enum", []⟩]⟩]⟩) =
      "type T \x7b list<list<enum>> x \x7d" := by decide +kernel
  have hback := parseSource_propertyText hparse hholds
  rw [htext] at hback
  exact ⟨_, hparse, hholds, hback⟩

end InterfaceSchema
