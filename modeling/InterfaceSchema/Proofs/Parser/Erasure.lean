import InterfaceSchema.Proofs.Parser.Writing
import InterfaceSchema.Proofs.Source.Lockstep

namespace InterfaceSchema

def Token.unplaced (t : Token) : Token :=
  ⟨t.kind, t.value, .origin, 0⟩

def Signature.unplaced (s : Signature) : Signature :=
  { s with name := s.name.unplaced }

def Slot.unplaced : Slot → Slot
  | .property record => .property record
  | .input signature => .input signature.unplaced
  | .output signature => .output signature.unplaced

-- Only procedures keep tokens, since a second definition is reported at its name.
def Place.unplaced : Place → Place
  | .inputs name => .inputs name.unplaced
  | .input signature => .input signature.unplaced
  | .inputEnd signature => .inputEnd signature.unplaced
  | .output signature => .output signature.unplaced
  | .argument slot inner outer => .argument slot.unplaced inner outer
  | .argumentEnd slot inner outer => .argumentEnd slot.unplaced inner outer
  | other => other

def Focus.unplaced : Focus → Focus
  | .place here => .place here.unplaced
  | .typeName slot lists name => .typeName slot.unplaced lists name

def Parser.unplaced (p : Parser) : Parser :=
  { p with focus := p.focus.unplaced }

def ParseError.unplaced (e : ParseError) : ParseError :=
  { e with token := e.token.unplaced }

namespace Scopes

variable (s : Scopes)

theorem deliver_unplaced (slot : Slot) (lists : List ArgumentList) (type : TypeRef) :
    s.deliver slot.unplaced lists type =
      ((s.deliver slot lists type).map (Prod.map id Place.unplaced)).mapError
        ParseError.unplaced := by
  cases lists with
  | cons inner outer => rfl
  | nil =>
    cases slot with
    | property record => rfl
    | input signature => rfl
    | output signature =>
      simp only [Slot.unplaced, Signature.unplaced, deliver, Token.unplaced]
      split <;> rfl

theorem define_unplaced (t : Token) :
    s.define t.unplaced = ((s.define t).map Place.unplaced).mapError ParseError.unplaced := by
  simp only [define, Token.unplaced]
  split
  · split <;> rfl
  all_goals rfl

end Scopes

namespace Parser

variable (s : Scopes) (p : Parser) (place : Place) (t : Token)

theorem closeScope_unplaced :
    closeScope s t.unplaced = ((closeScope s t).map unplaced).mapError ParseError.unplaced := by
  unfold closeScope
  cases s.close? <;> rfl

theorem addProperty_unplaced (record : RecordType) (type : TypeRef) :
    addProperty s record type t.unplaced =
      ((addProperty s record type t).map unplaced).mapError ParseError.unplaced := by
  have hvalue : t.unplaced.value = t.value := rfl
  rw [addProperty, hvalue, addProperty]
  split <;> rfl

theorem accept_unplaced :
    accept s place.unplaced t.unplaced =
      ((accept s place t).map unplaced).mapError ParseError.unplaced := by
  have hkind : t.unplaced.kind = t.kind := rfl
  cases place with
  | body =>
    simp only [Place.unplaced, accept, hkind, Scopes.define_unplaced]
    split
    · cases s.define t <;> rfl
    · split
      · exact closeScope_unplaced s t
      · rfl
  | block kind name =>
    simp only [Place.unplaced, accept, hkind]
    split
    · cases kind <;> rfl
    · rfl
  | propertyName record type =>
    simp only [Place.unplaced, accept, hkind]
    split
    · exact addProperty_unplaced s t record type
    · rfl
  | argumentEnd slot inner outer =>
    simp only [Place.unplaced, accept, hkind, Scopes.deliver_unplaced]
    split
    · rfl
    · split
      · cases s.deliver slot outer ⟨inner.name, inner.arguments⟩ <;> rfl
      · rfl
  | _ =>
    simp only [Place.unplaced, accept, hkind]
    repeat' split
    all_goals rfl

theorem step_unplaced :
    p.unplaced.step t.unplaced = ((p.step t).map unplaced).mapError ParseError.unplaced := by
  obtain ⟨s, place | ⟨slot, lists, name⟩⟩ := p
  · exact accept_unplaced s place t
  · have hkind : t.unplaced.kind = t.kind := rfl
    simp only [unplaced, Focus.unplaced, step, hkind, Scopes.deliver_unplaced]
    split
    · unfold openArguments
      split <;> rfl
    · cases s.deliver slot lists ⟨name, []⟩ with
      | error error => rfl
      | ok next => exact accept_unplaced next.1 next.2 t

theorem finishAt_unplaced :
    finishAt s place.unplaced t.unplaced = (finishAt s place t).mapError ParseError.unplaced := by
  obtain ⟨inner, outer⟩ := s
  cases outer <;> cases place <;> rfl

theorem finish_unplaced :
    p.unplaced.finish t.unplaced = (p.finish t).mapError ParseError.unplaced := by
  obtain ⟨s, place | ⟨slot, lists, name⟩⟩ := p
  · exact finishAt_unplaced s place t
  · simp only [unplaced, Focus.unplaced, finish, Scopes.deliver_unplaced]
    cases s.deliver slot lists ⟨name, []⟩ with
    | error error => rfl
    | ok next => exact finishAt_unplaced next.1 next.2 t

theorem placeEvents_unplaced :
    placeEvents s place.unplaced t.unplaced = placeEvents s place t := by
  cases place <;> rfl

theorem events_unplaced : p.unplaced.events t.unplaced = p.events t := by
  obtain ⟨s, place | ⟨slot, lists, name⟩⟩ := p
  · exact placeEvents_unplaced s place t
  · have hkind : t.unplaced.kind = t.kind := rfl
    simp only [unplaced, Focus.unplaced, events, hkind, Scopes.deliver_unplaced]
    cases s.deliver slot lists ⟨name, []⟩ with
    | error error => rfl
    | ok next =>
      simp only [Except.map, Except.mapError, Prod.map, placeEvents_unplaced, id]

theorem run_unplaced (last : Token) (reported : List Event) (ts : List Token) :
    p.unplaced.run last.unplaced reported (ts.map Token.unplaced) =
      (p.run last reported ts).map (·.mapError ParseError.unplaced) := by
  induction ts generalizing p reported with
  | nil => simp only [List.map_nil, run, finish_unplaced, Logged.map]
  | cons t ts ih =>
    have hkind : t.unplaced.kind = t.kind := rfl
    simp only [List.map_cons, run, hkind, finish_unplaced, step_unplaced, events_unplaced]
    split
    · rfl
    · cases p.step t with
      | error error => rfl
      | ok next => exact ih next _

end Parser

theorem parseTokens_unplaced (ts : List Token) :
    parseTokens (ts.map Token.unplaced) =
      (parseTokens ts).map (·.mapError ParseError.unplaced) := by
  have hlast : endOfTokens (ts.map Token.unplaced) = (endOfTokens ts).unplaced := by
    rw [endOfTokens, endOfTokens, List.getLast?_map]
    cases ts.getLast? <;> rfl
  rw [parseTokens, hlast]
  exact Parser.run_unplaced .initial _ [] ts

theorem ReadsAs.map_unplaced {us ts : List Token} (h : ReadsAs us ts) :
    us.map Token.unplaced = ts.map Token.unplaced := by
  have hmap := congrArg (List.map fun r : TokenKind × String => Token.mk r.1 r.2 .origin 0) h
  rwa [List.map_map, List.map_map] at hmap

theorem parseSource_of_tokenize {text : String} {tokens : List Token}
    (h : tokenize [] text = .ok tokens) :
    parseSource text =
      (parseTokens (tokens.filter fun t => !TokenKind.layout.contains t.kind)).map
        (·.mapError .ofParseError) := by
  have hfilter : tokenize TokenKind.layout text = _ :=
    Scanner.run_filter TokenKind.layout (.ofText text) []
  have hwhole : Scanner.run [] (.ofText text) [] = .ok tokens := h
  rw [hwhole] at hfilter
  rw [parseSource, hfilter]
  rfl

theorem ParseError.eq_of_unplaced {e e' : ParseError} (h : e.unplaced = e'.unplaced) :
    e.fault = e'.fault ∧ e.near = e'.near := by
  have hfault := congrArg ParseError.fault h
  have hnear := congrArg ParseError.near h
  exact ⟨hfault, hnear⟩

theorem parseSource_of_readsAs {text text' : String} {tokens tokens' : List Token}
    (htokens : tokenize [] text = .ok tokens) (htokens' : tokenize [] text' = .ok tokens')
    (hreads : ReadsAs (tokens.filter fun t => !TokenKind.layout.contains t.kind)
      (tokens'.filter fun t => !TokenKind.layout.contains t.kind)) :
    ((∃ ns, (parseSource text).value = .ok ns ∧ (parseSource text').value = .ok ns) ∨
      ∃ message near p p', (parseSource text).value = .error (.grammatical message near p) ∧
        (parseSource text').value = .error (.grammatical message near p')) ∧
    (parseSource text).events = (parseSource text').events := by
  rw [parseSource_of_tokenize htokens, parseSource_of_tokenize htokens']
  have hparsed := congrArg parseTokens hreads.map_unplaced
  rw [parseTokens_unplaced, parseTokens_unplaced] at hparsed
  generalize parseTokens (tokens.filter _) = parsed at hparsed ⊢
  generalize parseTokens (tokens'.filter _) = parsed' at hparsed ⊢
  obtain ⟨value, events⟩ := parsed
  obtain ⟨value', events'⟩ := parsed'
  obtain ⟨hvalue, hevents⟩ := Logged.mk.inj hparsed
  refine ⟨?_, hevents⟩
  cases value with
  | ok ns =>
    cases value' with
    | ok ns' =>
      obtain rfl := Except.ok.inj hvalue
      exact .inl ⟨ns, rfl, rfl⟩
    | error e => cases hvalue
  | error e =>
    cases value' with
    | ok ns => cases hvalue
    | error e' =>
      obtain ⟨hfault, hnear⟩ := ParseError.eq_of_unplaced (Except.error.inj hvalue)
      refine .inr ⟨e.fault.message, e.near, e.token.pos, e'.token.pos, rfl, ?_⟩
      rw [hfault, hnear]
      rfl

theorem repeated_rpc_in_two_layouts :
    ∃ tokens tokens', tokenize [] "rpc f()x rpc f()y" = .ok tokens ∧
      tokenize [] "rpc f // é\n() x\n rpc f()\ty" = .ok tokens' ∧
      ReadsAs (tokens.filter fun t => !TokenKind.layout.contains t.kind)
        (tokens'.filter fun t => !TokenKind.layout.contains t.kind) ∧
      ∃ message near p p',
        (parseSource "rpc f()x rpc f()y").value = .error (.grammatical message near p) ∧
        (parseSource "rpc f // é\n() x\n rpc f()\ty").value =
          .error (.grammatical message near p') := by
  have htokens : tokenize [] "rpc f()x rpc f()y" = .ok
      [⟨.keyword, "rpc", ⟨0, 0, 0⟩, 3⟩, ⟨.space, " ", ⟨3, 0, 3⟩, 1⟩,
        ⟨.identifier, "f", ⟨4, 0, 4⟩, 1⟩, ⟨.argumentsStart, "(", ⟨5, 0, 5⟩, 1⟩,
        ⟨.argumentsEnd, ")", ⟨6, 0, 6⟩, 1⟩, ⟨.identifier, "x", ⟨7, 0, 7⟩, 1⟩,
        ⟨.space, " ", ⟨8, 0, 8⟩, 1⟩, ⟨.keyword, "rpc", ⟨9, 0, 9⟩, 3⟩,
        ⟨.space, " ", ⟨12, 0, 12⟩, 1⟩, ⟨.identifier, "f", ⟨13, 0, 13⟩, 1⟩,
        ⟨.argumentsStart, "(", ⟨14, 0, 14⟩, 1⟩, ⟨.argumentsEnd, ")", ⟨15, 0, 15⟩, 1⟩,
        ⟨.identifier, "y", ⟨16, 0, 16⟩, 1⟩, ⟨.endOfFile, "", ⟨17, 0, 17⟩, 0⟩] := by
    decide +kernel
  have htokens' : tokenize [] "rpc f // é\n() x\n rpc f()\ty" = .ok
      [⟨.keyword, "rpc", ⟨0, 0, 0⟩, 3⟩, ⟨.space, " ", ⟨3, 0, 3⟩, 1⟩,
        ⟨.identifier, "f", ⟨4, 0, 4⟩, 1⟩, ⟨.space, " ", ⟨5, 0, 5⟩, 1⟩,
        ⟨.comment, "// é", ⟨6, 0, 6⟩, 5⟩, ⟨.endOfLine, "\n", ⟨11, 0, 10⟩, 1⟩,
        ⟨.argumentsStart, "(", ⟨12, 1, 0⟩, 1⟩, ⟨.argumentsEnd, ")", ⟨13, 1, 1⟩, 1⟩,
        ⟨.space, " ", ⟨14, 1, 2⟩, 1⟩, ⟨.identifier, "x", ⟨15, 1, 3⟩, 1⟩,
        ⟨.endOfLine, "\n", ⟨16, 1, 4⟩, 1⟩, ⟨.space, " ", ⟨17, 2, 0⟩, 1⟩,
        ⟨.keyword, "rpc", ⟨18, 2, 1⟩, 3⟩, ⟨.space, " ", ⟨21, 2, 4⟩, 1⟩,
        ⟨.identifier, "f", ⟨22, 2, 5⟩, 1⟩, ⟨.argumentsStart, "(", ⟨23, 2, 6⟩, 1⟩,
        ⟨.argumentsEnd, ")", ⟨24, 2, 7⟩, 1⟩, ⟨.space, "\t", ⟨25, 2, 8⟩, 1⟩,
        ⟨.identifier, "y", ⟨26, 2, 9⟩, 1⟩, ⟨.endOfFile, "", ⟨27, 2, 10⟩, 0⟩] := by
    decide +kernel
  have hfails : (parseSource "rpc f()x rpc f()y").value.isOk = false := by decide +kernel
  refine ⟨_, _, htokens, htokens', rfl, ?_⟩
  rcases (parseSource_of_readsAs htokens htokens' rfl).1 with ⟨ns, hns, -⟩ | hboth
  · rw [hns] at hfails
    cases hfails
  · exact hboth

end InterfaceSchema
