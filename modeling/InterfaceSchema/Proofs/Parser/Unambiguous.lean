import InterfaceSchema.Proofs.Parser.Writing

namespace InterfaceSchema

namespace Grammar

def NotApplied (us : List Token) : Prop :=
  ∀ t ∈ us.head?, t.kind ≠ .typeArgumentsStart

def NotNamed (us : List Token) : Prop :=
  ∀ t ∈ us.head?, t.kind.isName = false

-- A comma may stand behind the arguments of a procedure, but then no further argument does.
def NotSeparated (us : List Token) : Prop :=
  NotApplied us ∧ ∀ s vs, us = s :: vs → s.kind = .separator → NotNamed vs

theorem NotApplied.cons {t : Token} (h : t.kind ≠ .typeArgumentsStart) (us : List Token) :
    NotApplied (t :: us) := by
  simpa [NotApplied] using h

theorem notApplied_of_isName {t : Token} (h : t.kind.isName = true) (us : List Token) :
    NotApplied (t :: us) :=
  .cons (TokenKind.ne_of_isName h _ rfl) us

theorem NotNamed.cons {t : Token} (h : t.kind.isName = false) (us : List Token) :
    NotNamed (t :: us) := by
  simpa [NotNamed] using h

theorem NotSeparated.cons {t : Token} (hseparator : t.kind ≠ .separator)
    (hstart : t.kind ≠ .typeArgumentsStart) (us : List Token) : NotSeparated (t :: us) := by
  refine ⟨.cons hstart us, fun s vs heq hs => ?_⟩
  obtain ⟨rfl, -⟩ := List.cons.inj heq
  exact absurd hs hseparator

theorem NotSeparated.trailing {s : Token} (hs : s.kind = .separator) {us : List Token}
    (hus : NotNamed us) : NotSeparated (s :: us) := by
  refine ⟨.cons (by simp [hs]) us, fun s' vs heq _ => ?_⟩
  exact (List.cons.inj heq).2 ▸ hus

theorem Mention.exists_name {ts : List Token} {type : TypeRef} (h : Mention ts type) :
    ∃ n us, ts = n :: us ∧ n.kind.isName = true := by
  cases h with
  | name hn => exact ⟨_, _, rfl, hn⟩
  | applied hn => exact ⟨_, _, rfl, hn⟩

theorem Arguments.exists_name {ts : List Token} {types : List TypeRef} (h : Arguments ts types) :
    ∃ n us, ts = n :: us ∧ n.kind.isName = true := by
  cases h with
  | one hfirst => exact hfirst.exists_name
  | more hfirst =>
    obtain ⟨n, us, rfl, hn⟩ := hfirst.exists_name
    exact ⟨n, _, rfl, hn⟩

theorem NotNamed.ne_mention {us ts vs : List Token} {type : TypeRef} (h : NotNamed us)
    (hm : Mention ts type) : us ≠ ts ++ vs := by
  rintro rfl
  obtain ⟨n, ts, rfl, hn⟩ := hm.exists_name
  exact absurd hn (by simp [h n rfl])

theorem NotNamed.ne_arguments {us ts vs : List Token} {types : List TypeRef} (h : NotNamed us)
    (ha : Arguments ts types) : us ≠ ts ++ vs := by
  rintro rfl
  obtain ⟨n, ts, rfl, hn⟩ := ha.exists_name
  exact absurd hn (by simp [h n rfl])

theorem NotSeparated.ne_arguments {us ts vs : List Token} {s : Token} {types : List TypeRef}
    (h : NotSeparated us) (hs : s.kind = .separator) (ha : Arguments ts types) :
    us ≠ s :: (ts ++ vs) := by
  intro heq
  exact (h.2 s (ts ++ vs) heq hs).ne_arguments ha rfl

mutual

theorem Mention.end_unique {ts : List Token} {type : TypeRef} (h : Mention ts type) :
    ∀ {ts' us us' : List Token} {type' : TypeRef}, Mention ts' type' → NotApplied us →
      NotApplied us' → ts ++ us = ts' ++ us' → type = type' ∧ us = us' := by
  cases h with
  | @name n hn =>
    intro ts' us us' type' h' hus hus' heq
    cases h' with
    | name hn' =>
      obtain ⟨rfl, rfl⟩ := List.cons.inj heq
      exact ⟨rfl, rfl⟩
    | applied hn' ho' _ _ =>
      obtain ⟨-, rfl⟩ := List.cons.inj heq
      exact absurd ho' (hus _ rfl)
  | @applied n o c ts arguments hn ho harguments hc =>
    intro ts' us us' type' h' hus hus' heq
    cases h' with
    | name hn' =>
      obtain ⟨-, rfl⟩ := List.cons.inj heq
      exact absurd ho (hus' _ rfl)
    | @applied n' o' c' ts' arguments' hn' ho' harguments' hc' =>
      simp only [List.cons_append, List.append_assoc, List.cons.injEq] at heq
      obtain ⟨rfl, -, heq⟩ := heq
      have hafter : NotSeparated ([c] ++ us) := .cons (by simp [hc]) (by simp [hc]) us
      have hafter' : NotSeparated ([c'] ++ us') := .cons (by simp [hc']) (by simp [hc']) us'
      obtain ⟨rfl, hrest⟩ := harguments.end_unique harguments' hafter hafter' heq
      exact ⟨rfl, (List.cons.inj hrest).2⟩

theorem Arguments.end_unique {ts : List Token} {types : List TypeRef} (h : Arguments ts types) :
    ∀ {ts' us us' : List Token} {types' : List TypeRef}, Arguments ts' types' →
      NotSeparated us → NotSeparated us' → ts ++ us = ts' ++ us' → types = types' ∧ us = us' := by
  cases h with
  | one hfirst =>
    intro ts' us us' types' h' hus hus' heq
    cases h' with
    | one hfirst' =>
      obtain ⟨rfl, hrest⟩ := hfirst.end_unique hfirst' hus.1 hus'.1 heq
      exact ⟨rfl, hrest⟩
    | more hfirst' hs' hmore' =>
      rw [List.append_assoc] at heq
      obtain ⟨-, hrest⟩ := hfirst.end_unique hfirst' hus.1 (.cons (by simp [hs']) _) heq
      exact absurd hrest (hus.ne_arguments hs' hmore')
  | @more ts vs s type types hfirst hs hmore =>
    intro ts' us us' types' h' hus hus' heq
    rw [List.append_assoc] at heq
    cases h' with
    | one hfirst' =>
      obtain ⟨-, hrest⟩ := hfirst.end_unique hfirst' (.cons (by simp [hs]) _) hus'.1 heq
      exact absurd hrest.symm (hus'.ne_arguments hs hmore)
    | more hfirst' hs' hmore' =>
      rw [List.append_assoc] at heq
      obtain ⟨rfl, hrest⟩ := hfirst.end_unique hfirst' (.cons (by simp [hs]) _)
        (.cons (by simp [hs']) _) heq
      obtain ⟨rfl, hrest⟩ := hmore.end_unique hmore' hus hus' (List.cons.inj hrest).2
      exact ⟨rfl, hrest⟩

end

theorem Inputs.end_unique {ts ts' us us' : List Token} {types types' : List TypeRef}
    {c c' : Token} (h : Inputs ts types) (h' : Inputs ts' types')
    (hc : c.kind = .argumentsEnd) (hc' : c'.kind = .argumentsEnd)
    (heq : ts ++ c :: us = ts' ++ c' :: us') : types = types' ∧ us = us' := by
  have hname {d : Token} (hd : d.kind = .argumentsEnd) (vs : List Token) : NotNamed (d :: vs) :=
    .cons (by simp [hd, TokenKind.isName]) vs
  have hplain {d : Token} (hd : d.kind = .argumentsEnd) (vs : List Token) :
      NotSeparated (d :: vs) := .cons (by simp [hd]) (by simp [hd]) vs
  have hcomma {s d : Token} (hs : s.kind = .separator) (hd : d.kind = .argumentsEnd)
      (vs : List Token) : NotSeparated (s :: d :: vs) := .trailing hs (hname hd vs)
  have hclash {s d : Token} {vs ws : List Token} (hs : s.kind = .separator)
      (hd : d.kind = .argumentsEnd) : d :: vs ≠ s :: ws := by
    intro h
    rw [(List.cons.inj h).1, hs] at hd
    cases hd
  cases h with
  | none =>
    cases h' with
    | none => exact ⟨rfl, (List.cons.inj heq).2⟩
    | some ha' => exact absurd heq ((hname hc us).ne_arguments ha')
    | trailing ha' hs' =>
      rw [List.append_assoc] at heq
      exact absurd heq ((hname hc us).ne_arguments ha')
  | some ha =>
    cases h' with
    | none => exact absurd heq.symm ((hname hc' us').ne_arguments ha)
    | some ha' =>
      obtain ⟨rfl, hrest⟩ := ha.end_unique ha' (hplain hc us) (hplain hc' us') heq
      exact ⟨rfl, (List.cons.inj hrest).2⟩
    | trailing ha' hs' =>
      rw [List.append_assoc] at heq
      obtain ⟨-, hrest⟩ := ha.end_unique ha' (hplain hc us) (hcomma hs' hc' us') heq
      exact absurd hrest (hclash hs' hc)
  | trailing ha hs =>
    rw [List.append_assoc] at heq
    cases h' with
    | none => exact absurd heq.symm ((hname hc' us').ne_arguments ha)
    | some ha' =>
      obtain ⟨-, hrest⟩ := ha.end_unique ha' (hcomma hs hc us) (hplain hc' us') heq
      exact absurd hrest.symm (hclash hs hc')
    | trailing ha' hs' =>
      rw [List.append_assoc] at heq
      obtain ⟨rfl, hrest⟩ := ha.end_unique ha' (hcomma hs hc us) (hcomma hs' hc' us') heq
      exact ⟨rfl, (List.cons.inj (List.cons.inj hrest).2).2⟩

theorem Properties.end_unique {ts ts' us us' : List Token} {properties properties' : List Property}
    (h : Properties ts properties) (h' : Properties ts' properties') (hus : NotNamed us)
    (hus' : NotNamed us') (heq : ts ++ us = ts' ++ us') :
    properties = properties' ∧ us = us' := by
  induction h generalizing ts' properties' with
  | nil =>
    cases h' with
    | nil => exact ⟨rfl, heq⟩
    | more hm' _ _ =>
      rw [List.append_assoc] at heq
      exact absurd heq (hus.ne_mention hm')
  | more hm hn _ ih =>
    rw [List.append_assoc] at heq
    cases h' with
    | nil => exact absurd heq.symm (hus'.ne_mention hm)
    | more hm' hn' hmore' =>
      rw [List.append_assoc] at heq
      obtain ⟨rfl, hrest⟩ := hm.end_unique hm' (notApplied_of_isName hn _)
        (notApplied_of_isName hn' _) heq
      obtain ⟨rfl, htail⟩ := List.cons.inj hrest
      obtain ⟨rfl, hend⟩ := ih hmore' htail
      exact ⟨rfl, hend⟩

theorem Members.end_unique {ts ts' us us' : List Token} {members members' : List String}
    (h : Members ts members) (h' : Members ts' members') (hus : NotNamed us)
    (hus' : NotNamed us') (heq : ts ++ us = ts' ++ us') : members = members' ∧ us = us' := by
  induction h generalizing ts' members' with
  | nil =>
    cases h' with
    | nil => exact ⟨rfl, heq⟩
    | more hn' _ =>
      subst heq
      exact absurd hn' (by simp [hus _ rfl])
  | more hn _ ih =>
    cases h' with
    | nil =>
      subst heq
      exact absurd hn (by simp [hus' _ rfl])
    | more hn' hmore' =>
      obtain ⟨rfl, hrest⟩ := List.cons.inj heq
      obtain ⟨rfl, hrest⟩ := ih hmore' hrest
      exact ⟨rfl, hrest⟩

def keywordOf : Item → String
  | .scope .. => "namespace"
  | .option .. => "option"
  | .type .. => "type"
  | .enum .. => "enum"
  | .rpc .. => "rpc"

theorem Definition.exists_keyword {ts : List Token} {item : Item} (h : Definition ts item) :
    ∃ k us, ts = k :: us ∧ Announces k (keywordOf item) := by
  cases h with
  | scope hk => exact ⟨_, _, rfl, hk⟩
  | option hk => exact ⟨_, _, rfl, hk⟩
  | type hk => exact ⟨_, _, rfl, hk⟩
  | enum hk => exact ⟨_, _, rfl, hk⟩
  | rpc hk => exact ⟨_, _, rfl, hk⟩

theorem Definition.keywordOf_eq {ts ts' us us' : List Token} {item item' : Item}
    (h : Definition ts item) (h' : Definition ts' item') (heq : ts ++ us = ts' ++ us') :
    keywordOf item = keywordOf item' := by
  obtain ⟨k, ts, rfl, hk⟩ := h.exists_keyword
  obtain ⟨k', ts', rfl, hk'⟩ := h'.exists_keyword
  obtain ⟨rfl, -⟩ := List.cons.inj heq
  exact hk.2.symm.trans hk'.2

def NotAnnounced (us : List Token) : Prop :=
  NotApplied us ∧ ∀ t ∈ us.head?, t.kind ≠ .keyword

theorem notAnnounced_nil : NotAnnounced [] :=
  ⟨nofun, nofun⟩

theorem notAnnounced_of_blockEnd {c : Token} (hc : c.kind = .blockEnd) (us : List Token) :
    NotAnnounced (c :: us) :=
  ⟨.cons (by simp [hc]) us, by simp [hc]⟩

theorem NotAnnounced.ne_definition {us ts vs : List Token} {item : Item} (h : NotAnnounced us)
    (hd : Definition ts item) : us ≠ ts ++ vs := by
  rintro rfl
  obtain ⟨k, ts, rfl, hk⟩ := hd.exists_keyword
  exact h.2 k rfl hk.1

theorem Body.notApplied_append {ts us : List Token} {items : List Item} (h : Body ts items)
    (hus : NotApplied us) : NotApplied (ts ++ us) := by
  cases h with
  | nil => exact hus
  | more hfirst _ =>
    rw [List.append_assoc]
    exact hfirst.head_ne

theorem notNamed_of_blockEnd {c : Token} (hc : c.kind = .blockEnd) (us : List Token) :
    NotNamed (c :: us) :=
  .cons (by simp [hc, TokenKind.isName]) us

mutual

theorem Definition.end_unique {ts : List Token} {item : Item} (h : Definition ts item) :
    ∀ {ts' us us' : List Token} {item' : Item}, Definition ts' item' → NotApplied us →
      NotApplied us' → ts ++ us = ts' ++ us' → item = item' ∧ us = us' := by
  intro ts' us us' item' h' hus hus' heq
  have hword := h.keywordOf_eq h' heq
  cases h with
  | @scope k n o c ts body hk hn ho hbody hc =>
    cases h' with
    | @scope k' n' o' c' ts' body' hk' hn' ho' hbody' hc' =>
      simp only [List.cons_append, List.append_assoc, List.cons.injEq] at heq
      obtain ⟨-, rfl, -, heq⟩ := heq
      obtain ⟨rfl, hrest⟩ := hbody.end_unique hbody' (notAnnounced_of_blockEnd hc us)
        (notAnnounced_of_blockEnd hc' us') heq
      exact ⟨rfl, (List.cons.inj hrest).2⟩
    | _ => simp [keywordOf] at hword
  | option hk hn hv =>
    cases h' with
    | option hk' hn' hv' =>
      simp only [List.cons_append, List.nil_append, List.cons.injEq] at heq
      obtain ⟨-, rfl, rfl, rfl⟩ := heq
      exact ⟨rfl, rfl⟩
    | _ => simp [keywordOf] at hword
  | @type k n o c ts properties hk hn ho hproperties hc =>
    cases h' with
    | @type k' n' o' c' ts' properties' hk' hn' ho' hproperties' hc' =>
      simp only [List.cons_append, List.append_assoc, List.cons.injEq] at heq
      obtain ⟨-, rfl, -, heq⟩ := heq
      obtain ⟨rfl, hrest⟩ := hproperties.end_unique hproperties' (notNamed_of_blockEnd hc us)
        (notNamed_of_blockEnd hc' us') heq
      exact ⟨rfl, (List.cons.inj hrest).2⟩
    | _ => simp [keywordOf] at hword
  | @enum k n o c ts members hk hn ho hmembers hc =>
    cases h' with
    | @enum k' n' o' c' ts' members' hk' hn' ho' hmembers' hc' =>
      simp only [List.cons_append, List.append_assoc, List.cons.injEq] at heq
      obtain ⟨-, rfl, -, heq⟩ := heq
      obtain ⟨rfl, hrest⟩ := hmembers.end_unique hmembers' (notNamed_of_blockEnd hc us)
        (notNamed_of_blockEnd hc' us') heq
      exact ⟨rfl, (List.cons.inj hrest).2⟩
    | _ => simp [keywordOf] at hword
  | rpc hk hn ho hinputs hc houtput =>
    cases h' with
    | rpc hk' hn' ho' hinputs' hc' houtput' =>
      simp only [List.cons_append, List.append_assoc, List.cons.injEq] at heq
      obtain ⟨-, rfl, -, heq⟩ := heq
      obtain ⟨rfl, hrest⟩ := hinputs.end_unique hinputs' hc hc' heq
      obtain ⟨rfl, hrest⟩ := houtput.end_unique houtput' hus hus' hrest
      exact ⟨rfl, hrest⟩
    | _ => simp [keywordOf] at hword

theorem Body.end_unique {ts : List Token} {items : List Item} (h : Body ts items) :
    ∀ {ts' us us' : List Token} {items' : List Item}, Body ts' items' → NotAnnounced us →
      NotAnnounced us' → ts ++ us = ts' ++ us' → items = items' ∧ us = us' := by
  intro ts' us us' items' h' hus hus' heq
  cases h with
  | nil =>
    cases h' with
    | nil => exact ⟨rfl, heq⟩
    | more hfirst' _ =>
      rw [List.append_assoc] at heq
      exact absurd heq (hus.ne_definition hfirst')
  | more hfirst hmore =>
    rw [List.append_assoc] at heq
    cases h' with
    | nil => exact absurd heq.symm (hus'.ne_definition hfirst)
    | more hfirst' hmore' =>
      rw [List.append_assoc] at heq
      obtain ⟨rfl, hrest⟩ := hfirst.end_unique hfirst' (hmore.notApplied_append hus.1)
        (hmore'.notApplied_append hus'.1) heq
      obtain ⟨rfl, hrest⟩ := hmore.end_unique hmore' hus hus' hrest
      exact ⟨rfl, hrest⟩

end

theorem Body.unique {ts : List Token} {items items' : List Item} (h : Body ts items)
    (h' : Body ts items') : items = items' :=
  (h.end_unique h' notAnnounced_nil notAnnounced_nil rfl).1

end Grammar

theorem Writes.unique {cs : List Char} {items items' : List Item} (h : Writes cs items)
    (h' : Writes cs items') : items = items' := by
  obtain ⟨ls, hcut, hbody⟩ := h
  obtain ⟨ls', hcut', hbody'⟩ := h'
  obtain rfl := hcut.unique hcut'
  exact (hbody .origin).unique (hbody' .origin)

end InterfaceSchema
