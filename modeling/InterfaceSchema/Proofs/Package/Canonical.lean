import InterfaceSchema.Package.Tree
import InterfaceSchema.Proofs.Compilation.Spelling

namespace InterfaceSchema

namespace TypeRef

-- Arguments at the end are left out, at any depth.
inductive Abridges : TypeRef → TypeRef → Prop
  | name (name : String) (arguments : List TypeRef) : Abridges ⟨name, []⟩ ⟨name, arguments⟩
  | argument {name : String} {first first' : TypeRef} {others others' : List TypeRef} :
      Abridges first first' → Abridges ⟨name, others⟩ ⟨name, others'⟩ →
      Abridges ⟨name, first :: others⟩ ⟨name, first' :: others'⟩

namespace Abridges

variable {short type : TypeRef}

theorem names_subset (h : short.Abridges type) : short.names ⊆ type.names := by
  induction h with
  | name name arguments => simp [names, namesAll]
  | argument _ _ ih ihothers =>
    rw [names, names] at ihothers
    rw [names, names, namesAll, namesAll]
    intro name hname
    have hrest := @ihothers name
    simp only [List.mem_cons, List.mem_append] at hname hrest ⊢
    rcases hname with hname | hname | hname
    · exact .inl hname
    · exact .inr (.inl (ih hname))
    · exact (hrest (.inr hname)).imp_right .inr

theorem depth_le (h : short.Abridges type) : short.depth ≤ type.depth := by
  induction h with
  | name name arguments => exact Nat.zero_le _
  | @argument name first first' others others' _ _ ih ihothers =>
    have hothers : depthAll others ≤ depthAll others' := by
      cases others with
      | nil => exact Nat.zero_le _
      | cons second others =>
        cases others' with
        | nil => simp [depth] at ihothers
        | cons second' others' => simpa [depth, depthAll] using ihothers
    rw [depth, depth]
    omega

theorem fits {level : Nat} (h : short.Abridges type) (htype : type.Fits level) :
    short.Fits level :=
  ⟨fun name hname => htype.1 name (h.names_subset hname),
    Nat.le_trans (Nat.add_le_add_left h.depth_le level) htype.2⟩

end Abridges

end TypeRef

theorem Builtin.word_of_ofWord? {name : String} {b : Builtin} (h : ofWord? name = some b) :
    b.word = name := by
  simpa using List.find?_some h

namespace ResolvedType

def mention : ResolvedType → TypeRef
  | unit => ⟨Builtin.unit.word, []⟩
  | simple name => ⟨name, []⟩
  | time => ⟨Builtin.time.word, []⟩
  | bytes => ⟨Builtin.data.word, []⟩
  | list element => ⟨Builtin.list.word, [element.mention]⟩
  | map key value => ⟨Builtin.map.word, [key.mention, value.mention]⟩
  | record name _ => ⟨name, []⟩
  | enum name _ => ⟨name, []⟩
  | unknown => ⟨"?", []⟩

theorem text_mention (r : ResolvedType) : r.mention.text = r.text := by
  induction r with
  | list element ih => simp [mention, TypeRef.text, TypeRef.textOfRest, text, ih, Builtin.word]
  | map key value ihkey ihvalue =>
    simp [mention, TypeRef.text, TypeRef.textOfRest, text, ihkey, ihvalue, Builtin.word,
      String.append_assoc]
  | _ => rfl

end ResolvedType

namespace Registry

variable (r : Registry) (scopes : List PackageId)

theorem resolveDeclared_mention {name : String}
    (h : (r.resolveDeclared scopes name).isKnown = true) :
    (r.resolveDeclared scopes name).mention = ⟨name, []⟩ := by
  rw [resolveDeclared] at h ⊢
  split at h
  · cases h
  · rfl
  · rfl

theorem resolve_mention (type : TypeRef) (h : (r.resolve scopes type).isKnown = true) :
    (r.resolve scopes type).mention.Abridges type ∧
      r.resolve scopes (r.resolve scopes type).mention = r.resolve scopes type := by
  induction type using resolve_induction r scopes with
  | unit name arguments hword | time name arguments hword | data name arguments hword =>
    obtain rfl := Builtin.word_of_ofWord? hword
    refine ⟨.name _ _, ?_⟩
    simp [ResolvedType.mention, resolve, Builtin.ofWord?_word]
  | list name element hword ih =>
    obtain rfl := Builtin.word_of_ofWord? hword
    obtain ⟨habridges, hmeans⟩ := ih h
    refine ⟨.argument habridges (.name _ _), ?_⟩
    simp [ResolvedType.mention, resolve, Builtin.ofWord?_word, hmeans]
  | looseList | emptyMap | keyedMap => simp [ResolvedType.isKnown] at h
  | map name key value rest hword ihkey ihvalue =>
    obtain rfl := Builtin.word_of_ofWord? hword
    obtain ⟨hkey, hvalue⟩ := Bool.and_eq_true_iff.mp h
    obtain ⟨hshort, hmeans⟩ := ihkey hkey
    obtain ⟨hshort', hmeans'⟩ := ihvalue hvalue
    refine ⟨.argument hshort (.argument hshort' (.name _ _)), ?_⟩
    simp [ResolvedType.mention, resolve, Builtin.ofWord?_word, hmeans, hmeans']
  | simple name arguments builtin hword hother =>
    exact ⟨.name _ _, resolve_of_simple hword hother⟩
  | declared name arguments hword =>
    rw [resolveDeclared_mention r scopes h]
    exact ⟨.name _ _, by simp [resolve, hword]⟩

end Registry

theorem PackageTree.resolve_propertyText (t : PackageTree) (p : Package) {text : String}
    {ns : Namespace} {type : TypeRef} (h : (parseSource text).value = .ok ns)
    (htype : ns.Holds type) (hknown : (t.resolve p type).isKnown = true) :
    ∃ parsed mention, (parseSource (propertyText (t.resolve p type).text)).value = .ok parsed ∧
      parsed.propertyAt? [] "T" "x" = some ⟨"x", mention⟩ ∧
      t.resolve p mention = t.resolve p type := by
  obtain ⟨habridges, hmeans⟩ := t.registry.resolve_mention p.scopes type hknown
  obtain ⟨parsed, hparsed, hproperty⟩ := propertyAt?_propertyText (habridges.fits (htype.fits h))
  rw [ResolvedType.text_mention] at hparsed
  exact ⟨parsed, _, hparsed, hproperty, hmeans⟩

theorem surplus_arguments_read_back :
    ∃ root inner parsed mention,
      (compileSources
        [("s", "namespace b\x7brpc f(map<A<int>,list<A>,x>)A\x7d type A\x7b\x7d")]).value =
          .ok root ∧
      (PackageTree.build .standard root).value.get? 1 = some inner ∧
      (PackageTree.build .standard root).value.resolve inner ⟨"map", [⟨"A", [⟨"int", []⟩]⟩,
        ⟨"list", [⟨"A", []⟩]⟩, ⟨"x", []⟩]⟩ = .map (.record "A" 0) (.list (.record "A" 0)) ∧
      (parseSource "type T \x7b map<A,list<A>> x \x7d").value = .ok parsed ∧
      parsed.propertyAt? [] "T" "x" = some ⟨"x", mention⟩ ∧
      (PackageTree.build .standard root).value.resolve inner mention =
        .map (.record "A" 0) (.list (.record "A" 0)) := by
  obtain ⟨root, hitems, hroot, hparse⟩ : ∃ root, Namespace.root.declareAll
      [.scope "b" [.rpc "f" [⟨"map", [⟨"A", [⟨"int", []⟩]⟩, ⟨"list", [⟨"A", []⟩]⟩, ⟨"x", []⟩]⟩]
        ⟨"A", []⟩], .type "A" []] = root ∧
      (compileSources
        [("s", "namespace b\x7brpc f(map<A<int>,list<A>,x>)A\x7d type A\x7b\x7d")]).value =
          .ok root ∧
      (parseSource "namespace b\x7brpc f(map<A<int>,list<A>,x>)A\x7d type A\x7b\x7d").value =
        .ok root :=
    ⟨_, rfl, by decide +kernel, by decide +kernel⟩
  have hholds : root.Holds ⟨"map", [⟨"A", [⟨"int", []⟩]⟩, ⟨"list", [⟨"A", []⟩]⟩, ⟨"x", []⟩]⟩ := by
    subst hitems
    exact ⟨["b"], _, _, rfl, .inr ⟨_, List.mem_singleton_self _, .inl (List.mem_singleton_self _)⟩,
      .whole⟩
  obtain ⟨inner, hinner, hresolve⟩ : ∃ inner,
      (PackageTree.build .standard root).value.get? 1 = some inner ∧
      (PackageTree.build .standard root).value.resolve inner ⟨"map", [⟨"A", [⟨"int", []⟩]⟩,
        ⟨"list", [⟨"A", []⟩]⟩, ⟨"x", []⟩]⟩ = .map (.record "A" 0) (.list (.record "A" 0)) := by
    subst hitems
    exact ⟨_, rfl, by decide +kernel⟩
  have hback := PackageTree.resolve_propertyText (PackageTree.build .standard root).value inner
    hparse hholds (by rw [hresolve]; rfl)
  have htext : propertyText (ResolvedType.map (.record "A" 0) (.list (.record "A" 0))).text =
      "type T \x7b map<A,list<A>> x \x7d" := by decide +kernel
  rw [hresolve, htext] at hback
  obtain ⟨parsed, mention, hparsed, hproperty, hmeans⟩ := hback
  exact ⟨root, inner, parsed, mention, hroot, hinner, hresolve, hparsed, hproperty, hmeans⟩

end InterfaceSchema
