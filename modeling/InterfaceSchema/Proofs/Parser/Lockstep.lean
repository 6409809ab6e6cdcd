import InterfaceSchema.Proofs.Parser.Completion
import InterfaceSchema.Proofs.Parser.Descent

namespace InterfaceSchema

namespace Descent

open InterfaceSchema.Parser (accept placeEvents)

variable {α β : Type} {tokens : List Token} {t : Token} {p q : Parser} {cursor next : Cursor}
  {s s' : Scopes} {place place' : Place} {slot : Slot} {lists : List ArgumentList}

section Binding

variable {x : Reader α} {f : α → Reader β} {value : α}

theorem bind_of_ok (h : x cursor = .ok (value, next)) : (x >>= f) cursor = f value next := by
  change Except.bind (x cursor) _ = _
  rw [h]
  rfl

theorem get_bind (f : Cursor → Reader β) (cursor : Cursor) :
    ((get : Reader Cursor) >>= f) cursor = f cursor cursor :=
  rfl

theorem bind_of_error {stop : Stop} (h : x cursor = .error stop) :
    (x >>= f) cursor = .error stop := by
  change Except.bind (x cursor) _ = _
  rw [h]
  rfl

end Binding

structure At (tokens : List Token) (p : Parser) (cursor : Cursor) : Prop where
  closed : ∀ t ∈ tokens.getLast?, t.kind = .endOfFile
  inRange : cursor.index < tokens.length
  run_eq : p.run (endOfTokens tokens) cursor.reported (tokens.drop cursor.index) =
    parseTokens tokens

structure Sees (tokens : List Token) (p : Parser) (cursor : Cursor) (t : Token) : Prop
    extends At tokens p cursor where
  token : tokens[cursor.index]? = some t

theorem At.sees (h : At tokens p cursor) : ∃ t, Sees tokens p cursor t :=
  ⟨_, h, List.getElem?_eq_getElem h.inRange⟩

theorem lookahead_eq {n : Nat} (h : tokens[cursor.index + n]? = some t) :
    lookahead tokens n cursor = .ok (t, cursor) := by
  rw [lookahead, get_bind, h]
  rfl

theorem At.up (h : At tokens p cursor) : At tokens p cursor.up :=
  ⟨h.closed, h.inRange, h.run_eq⟩

theorem At.down (h : At tokens p cursor) : At tokens p cursor.down :=
  ⟨h.closed, h.inRange, h.run_eq⟩

namespace Sees

theorem peek_eq (h : Sees tokens p cursor t) : peek tokens cursor = .ok (t, cursor) :=
  lookahead_eq h.token

theorem next_inRange (h : Sees tokens p cursor t) (ht : t.kind ≠ .endOfFile) :
    cursor.index + 1 < tokens.length := by
  refine Nat.lt_of_le_of_ne h.inRange fun heq => ht (h.closed t ?_)
  rw [List.getLast?_eq_getElem?, ← heq, Nat.add_sub_cancel]
  exact h.token

theorem consume_eq (h : Sees tokens p cursor t) (ht : t.kind ≠ .endOfFile) :
    consume tokens cursor = .ok (t, cursor.next) := by
  have hlt : cursor.index < tokens.length - 1 := Nat.lt_sub_of_add_lt (h.next_inRange ht)
  rw [consume, bind_of_ok h.peek_eq, if_neg ht]
  change Except.ok (t, if cursor.index < tokens.length - 1 then _ else _) = _
  rw [if_pos hlt]

theorem run_eq_cons (h : Sees tokens p cursor t) :
    p.run (endOfTokens tokens) cursor.reported (t :: tokens.drop (cursor.index + 1)) =
      parseTokens tokens := by
  obtain ⟨hlt, heq⟩ := List.getElem?_eq_some_iff.mp h.token
  rw [← h.run_eq, List.drop_eq_getElem_cons hlt, heq]

theorem consume_of_step (h : Sees tokens p cursor t) (hstep : p.step t = .ok q) :
    consume tokens cursor = .ok (t, cursor.next) :=
  h.consume_eq (Parser.step_ne_endOfFile hstep)

theorem step (h : Sees tokens p cursor t) (hstep : p.step t = .ok q) :
    At tokens q (cursor.next.reporting (p.events t)) := by
  have ht := Parser.step_ne_endOfFile hstep
  refine ⟨h.closed, h.next_inRange ht, ?_⟩
  rw [← h.run_eq_cons, Parser.run, if_neg ht, hstep]
  rfl

theorem step_error (h : Sees tokens p cursor t) (ht : t.kind ≠ .endOfFile) {error : ParseError}
    (hstep : p.step t = .error error) :
    parseTokens tokens = ⟨.error error, cursor.reported.reverse⟩ := by
  rw [← h.run_eq_cons, Parser.run, if_neg ht, hstep]

theorem finish (h : Sees tokens p cursor t) (ht : t.kind = .endOfFile) :
    parseTokens tokens = ⟨p.finish t, cursor.reported.reverse⟩ := by
  rw [← h.run_eq_cons, Parser.run, if_pos ht]

-- Both the end of the text and a token that the place refuses fail with the fault of the place.
theorem reject (h : Sees tokens ⟨s, .place place⟩ cursor t)
    (haccept : accept s place t = Parser.reject place t) (hend : place.endFault = place.fault) :
    parseTokens tokens = ⟨.error ⟨place.fault, t⟩, cursor.reported.reverse⟩ := by
  by_cases ht : t.kind = .endOfFile
  · have hfinish : Parser.finishAt s place t = .error ⟨place.endFault, t⟩ := by
      cases place with
      | body => cases hend
      | _ => rfl
    rw [h.finish ht, ← hend, ← hfinish]
    rfl
  · exact h.step_error ht haccept

theorem quiet_step (h : Sees tokens p cursor t) (hstep : p.step t = .ok q)
    (hquiet : p.events t = []) : At tokens q cursor.next := by
  have hnext := h.step hstep
  rwa [hquiet] at hnext

theorem goto (h : Sees tokens ⟨s, .place place⟩ cursor t)
    (haccept : accept s place t = Parser.goto s' place') (hquiet : placeEvents s place t = []) :
    At tokens ⟨s', .place place'⟩ cursor.next :=
  h.quiet_step haccept hquiet

end Sees

def Ends (tokens : List Token) (Q : α → Cursor → Prop) : Except Stop (α × Cursor) → Prop
  | .ok (value, cursor) => Q value cursor
  | .error (.failed error events) => parseTokens tokens = ⟨.error error, events⟩
  | .error (.broken _) => False

section Rules

variable {x : Reader α} {f : α → Reader β} {Q : α → Cursor → Prop} {Q' : β → Cursor → Prop}

theorem Ends.bind (h : Ends tokens Q (x cursor))
    (hf : ∀ value next, Q value next → Ends tokens Q' (f value next)) :
    Ends tokens Q' ((x >>= f) cursor) := by
  cases hx : x cursor with
  | ok pair =>
    obtain ⟨value, next⟩ := pair
    rw [hx] at h
    rw [bind_of_ok hx]
    exact hf value next h
  | error stop =>
    rw [hx] at h
    rw [bind_of_error hx]
    cases stop with
    | failed error events => exact h
    | broken breach => exact h.elim

theorem Ends.imp {o : Except Stop (α × Cursor)} {R : α → Cursor → Prop} (h : Ends tokens Q o)
    (himp : ∀ value next, Q value next → R value next) : Ends tokens R o := by
  match o with
  | .ok (value, next) => exact himp value next h
  | .error (.failed error events) => exact h

theorem ends_fail (h : Sees tokens p cursor t) {fault : ParseFault}
    (hresult : parseTokens tokens = ⟨.error ⟨fault, t⟩, cursor.reported.reverse⟩) :
    Ends tokens Q (fail tokens fault cursor) := by
  rw [fail, bind_of_ok h.peek_eq]
  exact hresult

theorem ends_shift {value : α} (h : Sees tokens ⟨s, .place place⟩ cursor t)
    (haccept : accept s place t = Parser.goto s' place') (hquiet : placeEvents s place t = [])
    (hQ : At tokens ⟨s', .place place'⟩ cursor.next → Q value cursor.next) :
    Ends tokens Q ((consume tokens >>= fun _ => pure value) cursor) := by
  rw [bind_of_ok (h.consume_of_step haccept)]
  exact hQ (h.goto haccept hquiet)

theorem ends_deeper (h : Ends tokens (fun value next => Q value next.up) (x cursor.down)) :
    Ends tokens Q (deeper x cursor) :=
  @Ends.bind _ _ _ cursor.down x (fun value => modify Cursor.up >>= fun _ => pure value) _ Q h
    fun _ _ hnext => hnext

-- A loop ends well if each pass keeps the invariant and moves on, or ends well.
theorem ends_loop (inv : α → Cursor → Prop) {pass : α → Reader (α ⊕ β)}
    (hpass : ∀ value cursor, inv value cursor → Ends tokens
      (Sum.elim (fun value next => inv value next ∧ cursor.Precedes tokens next) Q')
      (pass value cursor))
    {value : α} (h : inv value cursor) : Ends tokens Q' (loop tokens pass value cursor) := by
  fun_induction loop tokens pass value cursor with
  | case1 value cursor stop hstop =>
    have hend := hpass value cursor h
    rw [hstop] at hend
    cases stop with
    | failed error events => exact hend
    | broken breach => exact hend.elim
  | case2 value cursor last next hlast =>
    have hend := hpass value cursor h
    rwa [hlast] at hend
  | case3 value cursor later next hnext hmoved ih =>
    have hend := hpass value cursor h
    rw [hnext] at hend
    exact ih hend.1
  | case4 value cursor later next hnext hstalled =>
    have hend := hpass value cursor h
    rw [hnext] at hend
    exact hstalled hend.2

end Rules

structure Cursor.Past (cursor later : Cursor) : Prop where
  index : cursor.index < later.index
  depth : later.depth = cursor.depth

theorem Cursor.past_next (cursor : Cursor) : cursor.Past cursor.next :=
  ⟨Nat.lt_succ_self _, rfl⟩

theorem Cursor.Past.trans {later : Cursor} (h : cursor.Past next) (h' : next.Past later) :
    cursor.Past later :=
  ⟨Nat.lt_trans h.index h'.index, h'.depth.trans h.depth⟩

theorem Cursor.Past.up (h : cursor.down.Past next) : cursor.Past next.up :=
  ⟨h.index, Nat.sub_eq_of_eq_add h.depth⟩

theorem Cursor.Past.down (h : cursor.Past next) : cursor.down.Past next.down :=
  ⟨h.index, congrArg Nat.succ h.depth⟩

theorem Cursor.Past.precedes (h : cursor.Past next) (hnext : At tokens p next) :
    cursor.Precedes tokens next :=
  ⟨h.index, hnext.inRange⟩

theorem Cursor.Past.reporting (h : cursor.Past next) (events : List Event) :
    cursor.Past (next.reporting events) :=
  ⟨h.index, h.depth⟩

theorem ends_passes {entry : Cursor} (state : α → Parser) {Q : β → Cursor → Prop}
    {pass : α → Reader (α ⊕ β)} {value : α}
    (hpass : ∀ value cursor, At tokens (state value) cursor → entry.Past cursor → Ends tokens
      (Sum.elim (fun value next => At tokens (state value) next ∧ cursor.Past next)
        fun result next => Q result next ∧ cursor.Past next)
      (pass value cursor))
    (h : At tokens (state value) cursor) (hentry : entry.Past cursor) :
    Ends tokens (fun result next => Q result next ∧ entry.Past next)
      (loop tokens pass value cursor) := by
  refine ends_loop (fun value later => At tokens (state value) later ∧ entry.Past later) ?_
    ⟨h, hentry⟩
  rintro value later ⟨hat, hlater⟩
  refine (hpass value later hat hlater).imp ?_
  rintro (value | result) next ⟨hnext, hpast⟩
  · exact ⟨⟨hnext, hlater.trans hpast⟩, hpast.precedes hnext⟩
  · exact ⟨hnext, hlater.trans hpast⟩

theorem ends_expect {kind : TokenKind} {scopes : Token → Scopes} {places : Token → Place}
    (h : At tokens ⟨s, .place place⟩ cursor)
    (haccept : ∀ t, accept s place t =
      if t.kind = kind then Parser.goto (scopes t) (places t) else Parser.reject place t)
    (hend : place.endFault = place.fault) (hquiet : ∀ t, placeEvents s place t = []) :
    Ends tokens
      (fun t next => tokens[cursor.index]? = some t ∧
        At tokens ⟨scopes t, .place (places t)⟩ next ∧ cursor.Past next)
      (expect tokens kind place.fault cursor) := by
  obtain ⟨t, ht⟩ := h.sees
  rw [expect, bind_of_ok ht.peek_eq]
  split
  · next heq =>
    have hgoto := (haccept t).trans (if_pos heq)
    rw [ht.consume_of_step hgoto]
    exact ⟨ht.token, ht.goto hgoto (hquiet t), cursor.past_next⟩
  · next hne => exact ends_fail ht (ht.reject ((haccept t).trans (if_neg hne)) hend)

end Descent

end InterfaceSchema
