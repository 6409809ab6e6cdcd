import InterfaceSchema.Compilation
import InterfaceSchema.Proofs.Parser.Recognition
import InterfaceSchema.Proofs.Source.Scanning

namespace InterfaceSchema

def Token.reading (t : Token) : TokenKind × String :=
  (t.kind, t.value)

def ReadsAs (us ts : List Token) : Prop :=
  us.map Token.reading = ts.map Token.reading

namespace ReadsAs

variable {us ts vs : List Token} {t : Token}

theorem of_nil (h : ReadsAs us []) : us = [] :=
  List.map_eq_nil_iff.mp h

theorem of_cons (h : ReadsAs us (t :: ts)) :
    ∃ u vs, us = u :: vs ∧ (u.kind = t.kind ∧ u.value = t.value) ∧ ReadsAs vs ts := by
  obtain ⟨u, vs, rfl, hu, hvs⟩ := List.map_eq_cons_iff.mp h
  exact ⟨u, vs, rfl, Prod.mk.inj hu, hvs⟩

theorem of_singleton (h : ReadsAs us [t]) :
    ∃ u, us = [u] ∧ u.kind = t.kind ∧ u.value = t.value := by
  obtain ⟨u, vs, rfl, hu, hvs⟩ := h.of_cons
  exact ⟨u, by rw [hvs.of_nil], hu⟩

theorem of_append (h : ReadsAs us (ts ++ vs)) :
    ∃ us' vs', us = us' ++ vs' ∧ ReadsAs us' ts ∧ ReadsAs vs' vs := by
  rw [ReadsAs, List.map_append] at h
  exact List.map_eq_append_iff.mp h

theorem of_block {k n o c : Token} (h : ReadsAs us (k :: n :: o :: (ts ++ [c]))) :
    ∃ k' n' o' c' ts', us = k' :: n' :: o' :: (ts' ++ [c']) ∧
      (k'.kind = k.kind ∧ k'.value = k.value) ∧ (n'.kind = n.kind ∧ n'.value = n.value) ∧
      o'.kind = o.kind ∧ c'.kind = c.kind ∧ ReadsAs ts' ts := by
  obtain ⟨k', us, rfl, hk, hus⟩ := h.of_cons
  obtain ⟨n', us, rfl, hn, hus⟩ := hus.of_cons
  obtain ⟨o', us, rfl, ho, hus⟩ := hus.of_cons
  obtain ⟨ts', us, rfl, hts, hus⟩ := hus.of_append
  obtain ⟨c', rfl, hc, -⟩ := hus.of_singleton
  exact ⟨k', n', o', c', ts', rfl, hk, hn, ho.1, hc, hts⟩

end ReadsAs

namespace Grammar

theorem Announces.congr {t u : Token} {word : String} (h : Announces t word)
    (hu : u.kind = t.kind ∧ u.value = t.value) : Announces u word :=
  ⟨hu.1.trans h.1, hu.2.trans h.2⟩

mutual

theorem Mention.congr {ts : List Token} {type : TypeRef} (h : Mention ts type) :
    ∀ {us : List Token}, ReadsAs us ts → Mention us type := by
  cases h with
  | @name n hn =>
    intro us hus
    obtain ⟨n', rfl, hkind, hvalue⟩ := hus.of_singleton
    exact hvalue ▸ .name (hkind ▸ hn)
  | @applied n o c ts arguments hn ho harguments hc =>
    intro us hus
    obtain ⟨n', us, rfl, hn', hus⟩ := hus.of_cons
    obtain ⟨o', us, rfl, ho', hus⟩ := hus.of_cons
    obtain ⟨ts', us, rfl, hts', hus⟩ := hus.of_append
    obtain ⟨c', rfl, hc', -⟩ := hus.of_singleton
    exact hn'.2 ▸ .applied (hn'.1 ▸ hn) (ho'.1 ▸ ho) (harguments.congr hts') (hc' ▸ hc)

theorem Arguments.congr {ts : List Token} {types : List TypeRef} (h : Arguments ts types) :
    ∀ {us : List Token}, ReadsAs us ts → Arguments us types := by
  cases h with
  | one htype => exact fun hus => .one (htype.congr hus)
  | @more ts us s type types htype hs htypes =>
    intro vs hvs
    obtain ⟨ts', vs, rfl, hts', hvs⟩ := hvs.of_append
    obtain ⟨s', us', rfl, hs', hus'⟩ := hvs.of_cons
    exact .more (htype.congr hts') (hs'.1 ▸ hs) (htypes.congr hus')

end

theorem Inputs.congr {ts us : List Token} {types : List TypeRef} (h : Inputs ts types)
    (hus : ReadsAs us ts) : Inputs us types := by
  cases h with
  | none => exact hus.of_nil ▸ .none
  | some htypes => exact .some (htypes.congr hus)
  | trailing htypes hs =>
    obtain ⟨ts', us, rfl, hts', hus⟩ := hus.of_append
    obtain ⟨s', rfl, hs', -⟩ := hus.of_singleton
    exact .trailing (htypes.congr hts') (hs' ▸ hs)

theorem Properties.congr {ts us : List Token} {properties : List Property}
    (h : Properties ts properties) (hus : ReadsAs us ts) : Properties us properties := by
  induction h generalizing us with
  | nil => exact hus.of_nil ▸ .nil
  | more htype hn _ ih =>
    obtain ⟨ts', us, rfl, hts', hus⟩ := hus.of_append
    obtain ⟨n', us', rfl, hn', hus'⟩ := hus.of_cons
    exact hn'.2 ▸ .more (htype.congr hts') (hn'.1 ▸ hn) (ih hus')

theorem Members.congr {ts us : List Token} {members : List String} (h : Members ts members)
    (hus : ReadsAs us ts) : Members us members := by
  induction h generalizing us with
  | nil => exact hus.of_nil ▸ .nil
  | more hn _ ih =>
    obtain ⟨n', us', rfl, hn', hus'⟩ := hus.of_cons
    exact hn'.2 ▸ .more (hn'.1 ▸ hn) (ih hus')

mutual

theorem Definition.congr {ts : List Token} {item : Item} (h : Definition ts item) :
    ∀ {us : List Token}, ReadsAs us ts → Definition us item := by
  cases h with
  | scope hk hn ho hbody hc =>
    intro us hus
    obtain ⟨k', n', o', c', ts', rfl, hk', hn', ho', hc', hts'⟩ := hus.of_block
    exact hn'.2 ▸ .scope (hk.congr hk') (hn'.1 ▸ hn) (ho' ▸ ho) (hbody.congr hts') (hc' ▸ hc)
  | option hk hn hv =>
    intro us hus
    obtain ⟨k', us, rfl, hk', hus⟩ := hus.of_cons
    obtain ⟨n', us, rfl, hn', hus⟩ := hus.of_cons
    obtain ⟨v', rfl, hv', hvalue⟩ := hus.of_singleton
    exact hn'.2 ▸ hvalue ▸ .option (hk.congr hk') (hn'.1 ▸ hn) (hv' ▸ hv)
  | type hk hn ho hproperties hc =>
    intro us hus
    obtain ⟨k', n', o', c', ts', rfl, hk', hn', ho', hc', hts'⟩ := hus.of_block
    exact hn'.2 ▸ .type (hk.congr hk') (hn'.1 ▸ hn) (ho' ▸ ho) (hproperties.congr hts') (hc' ▸ hc)
  | enum hk hn ho hmembers hc =>
    intro us hus
    obtain ⟨k', n', o', c', ts', rfl, hk', hn', ho', hc', hts'⟩ := hus.of_block
    exact hn'.2 ▸ .enum (hk.congr hk') (hn'.1 ▸ hn) (ho' ▸ ho) (hmembers.congr hts') (hc' ▸ hc)
  | rpc hk hn ho hinputs hc houtput =>
    intro us hus
    obtain ⟨k', us, rfl, hk', hus⟩ := hus.of_cons
    obtain ⟨n', us, rfl, hn', hus⟩ := hus.of_cons
    obtain ⟨o', us, rfl, ho', hus⟩ := hus.of_cons
    obtain ⟨ts', us, rfl, hts', hus⟩ := hus.of_append
    obtain ⟨c', us', rfl, hc', hus'⟩ := hus.of_cons
    exact hn'.2 ▸ .rpc (hk.congr hk') (hn'.1 ▸ hn) (ho'.1 ▸ ho) (hinputs.congr hts') (hc'.1 ▸ hc)
      (houtput.congr hus')

theorem Body.congr {ts : List Token} {items : List Item} (h : Body ts items) :
    ∀ {us : List Token}, ReadsAs us ts → Body us items := by
  cases h with
  | nil => exact fun hus => hus.of_nil ▸ .nil
  | more hitem hitems =>
    intro us hus
    obtain ⟨ts', us', rfl, hts', hus'⟩ := hus.of_append
    exact .more (hitem.congr hts') (hitems.congr hus')

end

end Grammar

def significant (p : Position) (ls : List Lexeme) : List Token :=
  (lexemeTokens p ls).filter fun t => !TokenKind.layout.contains t.kind

theorem significant_append (p : Position) (ls ms : List Lexeme) :
    significant p (ls ++ ms) = significant p ls ++ significant (endOfLexemes p ls) ms := by
  rw [significant, lexemeTokens_append, List.filter_append]
  rfl

theorem map_reading_significant (p : Position) (ls : List Lexeme) :
    (significant p ls).map Token.reading =
      (ls.filter fun l => !TokenKind.layout.contains l.kind).map
        fun l => (l.kind, String.ofList l.value) := by
  induction ls generalizing p with
  | nil => rfl
  | cons l ls ih =>
    have hls := ih (p.advance l.source)
    rw [significant] at hls ⊢
    rw [lexemeTokens, List.filter_cons, List.filter_cons]
    change List.map _ (if (!TokenKind.layout.contains l.kind) = true then _ else _) = _
    split
    · rw [List.map_cons, List.map_cons, hls]
      rfl
    · exact hls

theorem readsAs_significant (p q : Position) (ls : List Lexeme) :
    ReadsAs (significant p ls) (significant q ls) := by
  rw [ReadsAs, map_reading_significant, map_reading_significant]

theorem kind_ne_endOfFile {cs : List Char} {ls : List Lexeme} (h : Cut cs ls) (p : Position) :
    ∀ t ∈ significant p ls, t.kind ≠ .endOfFile :=
  fun t ht => h.kind_lexemeTokens p t (List.mem_of_mem_filter ht)

theorem Cut.append_line {cs ds : List Char} {ls ms : List Lexeme} (h : Cut cs ls)
    (h' : Cut ds ms) :
    Cut (cs ++ '\n' :: ds) (ls ++ ⟨.endOfLine, ['\n'], ['\n']⟩ :: ms) := by
  have hlines := (h.beginsWith_line ds).cut h'
  rwa [List.append_assoc] at hlines

def Writes (cs : List Char) (items : List Item) : Prop :=
  ∃ ls, Cut cs ls ∧ ∀ p, Grammar.Body (significant p ls) items

namespace Writes

theorem nil : Writes [] [] :=
  ⟨[], .nil, fun _ => .nil⟩

theorem append_line {cs ds : List Char} {xs ys : List Item} (h : Writes cs xs)
    (h' : Writes ds ys) : Writes (cs ++ '\n' :: ds) (xs ++ ys) := by
  obtain ⟨ls, hls, hxs⟩ := h
  obtain ⟨ms, hms, hys⟩ := h'
  refine ⟨_, hls.append_line hms, fun p => ?_⟩
  rw [significant_append]
  exact (hxs p).append (hys _)

end Writes

theorem parseSource_value_of_cut {text : String} {ls : List Lexeme} (h : Cut text.toList ls) :
    (parseSource text).value =
      (parseTokens (significant .origin ls ++
        [⟨.endOfFile, "", endOfLexemes .origin ls, 0⟩])).value.mapError .ofParseError := by
  have htokens := tokenize_of_cut TokenKind.layout h
  rw [tokensFrom, List.filter_append] at htokens
  rw [parseSource, htokens]
  rfl

theorem writes_of_parseSource {text : String} {ns : Namespace}
    (h : (parseSource text).value = .ok ns) :
    ∃ items, Writes text.toList items ∧ Item.Admissible 0 items ∧
      ns = Namespace.root.declareAll items := by
  cases htokens : tokenize TokenKind.layout text with
  | error error =>
    rw [parseSource, htokens] at h
    cases h
  | ok tokens =>
    obtain ⟨ls, hcut⟩ := cut_of_tokenize htokens
    rw [parseSource_value_of_cut hcut] at h
    have hkinds := kind_ne_endOfFile hcut .origin
    generalize hlast : Token.mk .endOfFile "" (endOfLexemes .origin ls) 0 = last at h
    cases hparsed : (parseTokens (significant .origin ls ++ [last])).value with
    | error error =>
      rw [hparsed] at h
      cases h
    | ok root =>
      rw [hparsed] at h
      obtain rfl : root = ns := Except.ok.inj h
      obtain ⟨items, hbody, hitems, hroot⟩ :=
        items_of_parseTokens (hlast ▸ rfl) hkinds hparsed
      exact ⟨items, ⟨ls, hcut, fun p => hbody.congr (readsAs_significant p .origin ls)⟩, hitems,
        hroot⟩

theorem parseSource_of_writes {text : String} {items : List Item}
    (h : Writes text.toList items) (hitems : Item.Admissible 0 items) :
    (parseSource text).value = .ok (Namespace.root.declareAll items) := by
  obtain ⟨ls, hcut, hbody⟩ := h
  rw [parseSource_value_of_cut hcut,
    parseTokens_of_items rfl (kind_ne_endOfFile hcut .origin) (hbody .origin) hitems]
  rfl

theorem parseSource_of_repeated {text : String} {items : List Item}
    (h : Writes text.toList items) (hdistinct : Item.DistinctAll items)
    (hdepth : Item.depthAll items ≤ nestingLimit) (hrepeated : ¬ (Item.rpcNames items).Nodup) :
    ∃ name token, (Item.rpcNames items).Duplicate name ∧
      (parseSource text).value = .error (.ofParseError ⟨.rpcRepeated name, token⟩) := by
  obtain ⟨ls, hcut, hbody⟩ := h
  obtain ⟨name, -, hname, t, ht⟩ := @Grammar.Body.outcome_repeated _ _ (hbody .origin) .initial
    hdistinct (by simpa [Scopes.initial] using hdepth) (fun hnodup => absurd hnodup hrepeated)
  refine ⟨name, t, hname.resolve_left nofun, ?_⟩
  rw [parseSource_value_of_cut hcut, parseTokens,
    Parser.run_value rfl (kind_ne_endOfFile hcut .origin), Parser.initial, ht]
  rfl

end InterfaceSchema
