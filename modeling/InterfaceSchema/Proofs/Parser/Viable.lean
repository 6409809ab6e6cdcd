import InterfaceSchema.Diagnostic
import InterfaceSchema.Proofs.Parser.Completion

namespace InterfaceSchema

def Accepts (tokens : List Token) : Prop :=
  ∃ root, (parseTokens tokens).value = .ok root

namespace Parser

inductive Reaches : Parser → List Token → Parser → Prop
  | refl (p : Parser) : Reaches p [] p
  | step {p q r : Parser} {t : Token} {ts : List Token} :
      p.step t = .ok q → Reaches q ts r → Reaches p (t :: ts) r

namespace Reaches

variable {p q : Parser} {ts : List Token}

theorem append {r : Parser} {us : List Token} (h : Reaches p ts q) (h' : Reaches q us r) :
    Reaches p (ts ++ us) r := by
  induction h with
  | refl p => exact h'
  | step hstep _ ih => exact .step hstep (ih h')

theorem run (h : Reaches p ts q) (last : Token) (reported : List Event) (us : List Token) :
    ∃ reported', p.run last reported (ts ++ us) = q.run last reported' us := by
  induction h generalizing reported with
  | refl p => exact ⟨reported, rfl⟩
  | step hstep _ ih =>
      rw [List.cons_append, Parser.run, if_neg (step_ne_endOfFile hstep), hstep]
      exact ih _

theorem outcome (h : Reaches p ts q) (us : List Token) :
    p.outcome (ts ++ us) = q.outcome us := by
  induction h with
  | refl p => rfl
  | step hstep _ ih => rw [List.cons_append, outcome_cons_of_step _ hstep, ih]

theorem of_outcome {s : Scopes} {place : Place} {t : Token} (h : p.outcome ts = .ok (s, place))
    (ht : t.kind ≠ .typeArgumentsStart) (haccept : accept s place t = .ok q) :
    Reaches p (ts ++ [t]) q := by
  induction ts generalizing p with
  | nil => exact .step ((step_of_settle h ht).trans haccept) (.refl q)
  | cons u ts ih =>
      rw [Parser.outcome] at h
      cases hstep : p.step u with
      | error error => simp [hstep] at h
      | ok next => exact .step hstep (ih (by simpa [hstep] using h))

theorem follows {before : List Token} (hp : Grammar.Follows before p) (h : Reaches p ts q) :
    Grammar.Follows (before ++ ts) q := by
  induction h generalizing before with
  | refl p => rwa [List.append_nil]
  | step hstep _ ih =>
      rw [List.append_cons]
      exact ih (hp.step hstep)

end Reaches

inductive Stops (p : Parser) (t : Token) (error : ParseError) : Prop
  | inside : t.kind ≠ .endOfFile → p.step t = .error error → Stops p t error
  | atEnd : t.kind = .endOfFile → p.finish t = .error error → Stops p t error

theorem Stops.run {p : Parser} {t : Token} {error : ParseError} (h : p.Stops t error)
    (last : Token) (reported : List Event) (ts : List Token) :
    (p.run last reported (t :: ts)).value = .error error := by
  cases h with
  | inside ht hstep => rw [Parser.run, if_neg ht, hstep]
  | atEnd ht hfinish => rw [Parser.run, if_pos ht, hfinish]

theorem exists_stop {last eof : Token} (heof : eof.kind = .endOfFile) {ts : List Token}
    {error : ParseError} {p : Parser} {reported : List Event}
    (h : (p.run last reported (ts ++ [eof])).value = .error error) :
    ∃ before t after q, ts ++ [eof] = before ++ t :: after ∧ Reaches p before q ∧
      q.Stops t error := by
  induction ts generalizing p reported with
  | nil =>
      rw [List.nil_append, run, if_pos heof] at h
      exact ⟨[], eof, [], p, rfl, .refl p, .atEnd heof h⟩
  | cons t ts ih =>
      rw [List.cons_append, run] at h
      split at h
      · next ht => exact ⟨[], t, ts ++ [eof], p, rfl, .refl p, .atEnd ht h⟩
      · next ht =>
          cases hstep : p.step t with
          | error other =>
              obtain rfl : other = error := by simpa [hstep] using h
              exact ⟨[], t, ts ++ [eof], p, rfl, .refl p, .inside ht hstep⟩
          | ok next =>
              rw [hstep] at h
              obtain ⟨before, u, after, q, hsplit, hreaches, hstop⟩ := ih h
              exact ⟨t :: before, u, after, q, by rw [List.cons_append, hsplit]; rfl,
                .step hstep hreaches, hstop⟩

theorem token_of_define {s : Scopes} {t : Token} {error : ParseError}
    (h : s.define t = .error error) : error.token = t := by
  unfold Scopes.define at h
  split at h
  · split at h <;> cases h
    rfl
  · cases h
  · cases h
  · cases h
  · cases h
  · cases h
    rfl

theorem token_of_accept {s : Scopes} {place : Place} {t : Token} {error : ParseError}
    (h : accept s place t = .error error) :
    error.token = t ∨ Repeats ⟨s, .place place⟩ error.token := by
  cases place with
  | body =>
      left
      simp only [accept] at h
      split at h
      · split at h
        · next hdefine =>
            cases h
            exact token_of_define hdefine
        · cases h
      · split at h
        · unfold closeScope at h
          split at h <;> cases h
          rfl
        · cases h
          rfl
  | argumentEnd slot inner outer =>
      simp only [accept] at h
      split at h
      · cases h
      · split at h
        · split at h
          · next hdeliver =>
              cases h
              obtain ⟨hslot, hdeclared⟩ := Repeats.of_deliver_error hdeliver
              exact .inr ⟨hslot, hdeclared⟩
          · cases h
        · cases h
          exact .inl rfl
  | _ =>
      -- at every other place the parser either goes on or refuses the token itself
      left
      simp only [accept, addProperty, startType, goto, reject] at h
      repeat' split at h
      all_goals cases h
      all_goals rfl

theorem token_of_finishAt {s : Scopes} {place : Place} {t : Token} {error : ParseError}
    (h : finishAt s place t = .error error) : error.token = t := by
  unfold finishAt at h
  split at h <;> cases h
  rfl

theorem Stops.token {p : Parser} {t : Token} {error : ParseError} (h : p.Stops t error) :
    error.token = t ∨ p.Repeats error.token := by
  cases h with
  | inside ht hstep =>
      by_cases hopen : t.kind = .typeArgumentsStart
      · obtain ⟨s, focus⟩ := p
        cases focus with
        | place place => exact token_of_accept hstep
        | typeName slot lists name =>
            simp only [step, hopen, if_pos, openArguments] at hstep
            split at hstep <;> cases hstep
            exact .inl rfl
      · cases hsettle : p.settle with
        | error other =>
            rw [step_of_settle_error hsettle hopen] at hstep
            cases hstep
            exact .inr (.of_settle_error hsettle)
        | ok result =>
            rw [step_of_settle hsettle hopen] at hstep
            exact (token_of_accept hstep).imp_right (Repeats.settle_iff hsettle).mp
  | atEnd ht hfinish =>
      rw [finish_eq_settle] at hfinish
      cases hsettle : p.settle with
      | error other =>
          obtain rfl : other = error := by simpa [hsettle] using hfinish
          exact .inr (.of_settle_error hsettle)
      | ok result =>
          obtain ⟨s, place⟩ := result
          rw [hsettle] at hfinish
          exact .inl (token_of_finishAt hfinish)

end Parser

namespace Grammar

open InterfaceSchema.Parser

theorem Opened.outcome {ts : List Token} {s : Scopes} (h : Opened ts s) :
    Parser.initial.outcome ts = .ok (s, .body) := by
  induction h with
  | root hbody hitems => exact hbody.outcome_initial hitems
  | @scope ts us s k n o items _ hk hn ho hbody hitems ih =>
      have hdepth := hitems.depth
      have hlt : s.outer.length ≠ nestingLimit := by omega
      have hdefine : s.define ⟨.keyword, "namespace", k.pos, k.len⟩ = .ok (.blockName .scope) := by
        simp [Scopes.define, hlt]
      rw [outcome_append_ok ih (hk.head_ne _), outcome_goto _ (accept_announced hk hdefine),
        outcome_block hn ho]
      exact @Body.outcome_eq _ _ hbody (s.openScope n.value) hitems.rpcNames hitems.distinct
        hitems.depth (fun _ _ => rfl)

-- The tokens end inside the definition of the procedure `n`, which they start.
inductive StartsRpc (n : Token) : List Token → Prop
  | intro {k : Token} {ts more : List Token} {item : Item} :
      Announces k "rpc" → n.kind = .identifier → Definition (k :: n :: (ts ++ more)) item →
      StartsRpc n (k :: n :: ts)

-- `s.inner` holds what the innermost open block has declared so far.
inductive RepeatsRpc (n : Token) : List Token → Prop
  | intro {ts us : List Token} {s : Scopes} :
      Opened ts s → s.inner.rpcs.contains n.value = true → StartsRpc n us →
      RepeatsRpc n (ts ++ us)

theorem OpenLists.close {level : Nat} {ts us : List Token} {lists : List ArgumentList}
    {type : TypeRef} (h : OpenLists level ts lists) (hm : Mention us type) :
    ∃ more closed, Mention (ts ++ (us ++ more)) closed := by
  induction h generalizing us type with
  | nil => exact ⟨[], type, by simpa using hm⟩
  | @list ts vs lists n o types _ hn ho hstarted _ ih =>
      have hlist : Mention (n :: o :: (vs ++ us ++ [⟨.typeArgumentsEnd, ">", .origin, 0⟩]))
          ⟨n.value, types ++ [type]⟩ :=
        .applied hn ho (hstarted.append_mention hm) rfl
      obtain ⟨more, closed, hclosed⟩ := ih hlist
      exact ⟨⟨.typeArgumentsEnd, ">", .origin, 0⟩ :: more, closed, by simpa using hclosed⟩

theorem StartsRpc.of_inputs {k n o : Token} {ts more : List Token} {types : List TypeRef}
    (hk : Announces k "rpc") (hn : n.kind = .identifier) (ho : o.kind = .argumentsStart)
    (hinputs : Inputs (ts ++ more) types) : StartsRpc n (k :: n :: o :: ts) := by
  have hitem : Definition (k :: n :: o :: (ts ++ more ++
      ⟨.argumentsEnd, ")", .origin, 0⟩ :: [⟨.identifier, "t", .origin, 0⟩]))
      (.rpc n.value types ⟨"t", []⟩) :=
    .rpc hk hn ho hinputs rfl (.name rfl)
  exact .intro hk hn (by simpa using hitem)

theorem StartsRpc.of_output {k n o c : Token} {ts us more : List Token} {types : List TypeRef}
    {type : TypeRef} (hk : Announces k "rpc") (hn : n.kind = .identifier)
    (ho : o.kind = .argumentsStart) (hinputs : Inputs ts types) (hc : c.kind = .argumentsEnd)
    (hm : Mention (us ++ more) type) : StartsRpc n (k :: n :: o :: (ts ++ [c]) ++ us) :=
  .intro hk hn (by simpa using Definition.rpc hk hn ho hinputs hc hm)

theorem Pending.startsRpc_mention {level : Nat} {slot : Slot} {ts us more : List Token}
    {n : Token} {type : TypeRef} (h : Pending level slot.place ts) (hn : slot.rpc? = some n)
    (hm : Mention (us ++ more) type) : StartsRpc n (ts ++ us) := by
  cases slot with
  | property record => cases hn
  | input signature =>
      cases h with
      | input hk hname ho hstarted _ =>
          cases hn
          have harguments := hstarted.append_mention hm
          rw [← List.append_assoc] at harguments
          exact .of_inputs hk hname ho (.some harguments)
  | output signature =>
      cases h with
      | output hk hname ho hinputs _ hc =>
          cases hn
          exact .of_output hk hname ho hinputs hc hm

theorem Pending.startsRpc {level : Nat} {place : Place} {ts : List Token} {n : Token}
    (h : Pending level place ts) (hn : place.rpc? = some n) : StartsRpc n ts := by
  have hnext : Mention [⟨.identifier, "t", .origin, 0⟩] ⟨"t", []⟩ := .name rfl
  cases h with
  | @inputs k n hk hname =>
      cases hn
      exact .intro hk hname (.rpc hk hname
        (rfl : (Token.mk .argumentsStart "(" .origin 0).kind = .argumentsStart) .none
        (rfl : (Token.mk .argumentsEnd ")" .origin 0).kind = .argumentsEnd) hnext)
  | input hk hname ho hstarted _ =>
      cases hn
      exact @StartsRpc.of_inputs _ _ _ _ [] _ hk hname ho (by simpa using hstarted.inputs)
  | inputEnd hk hname ho harguments _ =>
      cases hn
      exact @StartsRpc.of_inputs _ _ _ _ [] _ hk hname ho (by simpa using Inputs.some harguments)
  | output hk hname ho hinputs _ hc =>
      cases hn
      simpa using @StartsRpc.of_output _ _ _ _ _ [] _ _ _ hk hname ho hinputs hc hnext
  | argument hslot hlists =>
      obtain ⟨more, type, hm⟩ := hlists.close hnext
      exact hslot.startsRpc_mention hn hm
  | argumentEnd hslot hlists hm ho harguments _ =>
      obtain ⟨more, type, hclosed⟩ := hlists.close (.applied hm ho harguments
        (rfl : (Token.mk .typeArgumentsEnd ">" .origin 0).kind = .typeArgumentsEnd))
      exact hslot.startsRpc_mention hn (by simpa using hclosed)
  | _ => cases hn

theorem Follows.repeatsRpc {before : List Token} {p : Parser} {n : Token} (h : Follows before p)
    (hp : p.Repeats n) : RepeatsRpc n before := by
  cases h with
  | place hs hplace => exact .intro hs hp.declared (hplace.startsRpc hp.reads)
  | typeName hs hslot hlists hname =>
      obtain ⟨more, type, hm⟩ := hlists.close (.name hname)
      exact .intro hs hp.declared (hslot.startsRpc_mention hp.reads (by simpa using hm))

theorem Opened.reaches_rpcName {ts : List Token} {s : Scopes} {k : Token} (hs : Opened ts s)
    (hk : Announces k "rpc") : Reaches .initial (ts ++ [k]) ⟨s, .place .rpcName⟩ :=
  .of_outcome hs.outcome (hk.head_ne [] k rfl) (accept_announced hk rfl)

theorem RepeatsRpc.not_accepts {n : Token} {before : List Token} (h : RepeatsRpc n before)
    (others : List Token) : ¬ Accepts (before ++ others) := by
  cases h with
  | @intro ts _ s hs hdeclared hstarts =>
      cases hstarts with
      | @intro k us more item hk hn _ =>
          rintro ⟨root, hroot⟩
          have hname : accept s .rpcName n = goto s (.inputs n) := by simp [accept, hn]
          have hreaches : Reaches .initial (ts ++ [k] ++ [n]) ⟨s, .place (.inputs n)⟩ :=
            (hs.reaches_rpcName hk).append (.step hname (.refl _))
          obtain ⟨reported, hrun⟩ := hreaches.run (endOfTokens (ts ++ k :: n :: us ++ others)) []
            (us ++ others)
          have hrepeats : Repeats ⟨s, .place (.inputs n)⟩ n := ⟨rfl, hdeclared⟩
          apply hrepeats.run_ne_ok _ reported (us ++ others) root
          rw [← hrun]
          simpa [parseTokens] using hroot

end Grammar

theorem viable_iff {before : List Token} {p : Parser} (h : Parser.initial.Reaches before p)
    {last : Token} (hlast : last.kind = .endOfFile) :
    (∃ more, (∀ t ∈ more, t.kind ≠ .endOfFile) ∧ Accepts (before ++ more ++ [last])) ↔
      ∀ name, ¬ Grammar.RepeatsRpc name before := by
  constructor
  · rintro ⟨more, -, haccepts⟩ name hrepeats
    rw [List.append_assoc] at haccepts
    exact hrepeats.not_accepts _ haccepts
  · intro hnew
    have hfollows : Grammar.Follows before p := h.follows .initial
    obtain ⟨more, root, hmore⟩ := Parser.completable_of_not_repeats
      fun name hrepeats => hnew name (hfollows.repeatsRpc hrepeats)
    have houtcome := (h.outcome more).trans hmore
    have hne := Parser.ne_endOfFile_of_outcome houtcome
    refine ⟨more, fun t ht => hne t (List.mem_append_right _ ht), root, ?_⟩
    rw [parseTokens, Parser.run_value hlast hne, houtcome]
    exact finishAt_eq_ok_iff.mpr ⟨rfl, rfl⟩

theorem parseTokens_error_where_hopeless {tokens : List Token} {last : Token}
    (hlast : last.kind = .endOfFile) {error : ParseError}
    (h : (parseTokens (tokens ++ [last])).value = .error error) :
    ∃ before t after, tokens ++ [last] = before ++ t :: after ∧
      Diagnostic.ofParseError error = .grammatical error.fault.message
        (if t.kind = .endOfFile then "end of file" else Json.quote t.value) t.pos ∧
      (∀ others, ¬ Accepts (before ++ t :: others)) ∧
      ((∃ more, (∀ u ∈ more, u.kind ≠ .endOfFile) ∧ Accepts (before ++ more ++ [last])) ↔
        ∀ name, ¬ Grammar.RepeatsRpc name before) := by
  obtain ⟨before, t, after, p, hsplit, hreaches, hstops⟩ := Parser.exists_stop hlast h
  rcases hstops.token with rfl | hrepeats
  · refine ⟨before, error.token, after, hsplit, rfl, ?_, viable_iff hreaches hlast⟩
    rintro others ⟨root, hroot⟩
    obtain ⟨reported, hrun⟩ := hreaches.run _ [] (error.token :: others)
    rw [parseTokens, hrun, hstops.run] at hroot
    cases hroot
  · -- the parser has read on behind the name that it reports
    cases (hreaches.follows .initial).repeatsRpc hrepeats with
    | @intro ts _ s hs hdeclared hstarts =>
        cases hstarts with
        | @intro k us more item hk hn hitem =>
            refine ⟨ts ++ [k], error.token, us ++ t :: after, by simpa using hsplit, rfl, ?_,
              viable_iff (hs.reaches_rpcName hk) hlast⟩
            intro others
            have hname : Grammar.StartsRpc error.token [k, error.token] := .intro hk hn hitem
            have hdead := (Grammar.RepeatsRpc.intro hs hdeclared hname).not_accepts others
            simpa using hdead

theorem hopeless_at_repeated_rpc :
    ∃ before t after,
      [⟨.keyword, "rpc", ⟨0, 0, 0⟩, 3⟩, ⟨.identifier, "f", ⟨4, 0, 4⟩, 1⟩,
       ⟨.argumentsStart, "(", ⟨5, 0, 5⟩, 1⟩, ⟨.argumentsEnd, ")", ⟨6, 0, 6⟩, 1⟩,
       ⟨.identifier, "t", ⟨7, 0, 7⟩, 1⟩, ⟨.keyword, "rpc", ⟨9, 0, 9⟩, 3⟩,
       ⟨.identifier, "f", ⟨13, 0, 13⟩, 1⟩, ⟨.argumentsStart, "(", ⟨14, 0, 14⟩, 1⟩,
       ⟨.argumentsEnd, ")", ⟨15, 0, 15⟩, 1⟩, ⟨.identifier, "t", ⟨16, 0, 16⟩, 1⟩] ++
        [⟨.endOfFile, "", ⟨17, 0, 17⟩, 0⟩] = before ++ t :: after ∧
      Diagnostic.ofParseError ⟨.rpcRepeated "f", ⟨.identifier, "f", ⟨13, 0, 13⟩, 1⟩⟩ =
        .grammatical (ParseFault.rpcRepeated "f").message
          (if t.kind = .endOfFile then "end of file" else Json.quote t.value) t.pos ∧
      (∀ others, ¬ Accepts (before ++ t :: others)) ∧
      ((∃ more, (∀ u ∈ more, u.kind ≠ .endOfFile) ∧
          Accepts (before ++ more ++ [⟨.endOfFile, "", ⟨17, 0, 17⟩, 0⟩])) ↔
        ∀ name, ¬ Grammar.RepeatsRpc name before) :=
  parseTokens_error_where_hopeless rfl rfl

end InterfaceSchema
