import InterfaceSchema.Proofs.Compilation.Meaning
import InterfaceSchema.Proofs.Parser.Reports
import InterfaceSchema.Proofs.Parser.Unambiguous
import Mathlib.Data.List.Dedup

namespace InterfaceSchema

namespace Namespace

theorem rpcPlaces_declare_scope (name scope : String) (body : List Item) :
    ((ofName name).declare (.scope scope body)).rpcPlaces =
      ((ofName scope).declareAll body).rpcPlaces.map (Prod.map (scope :: ·) id) := by
  have hname : ((ofName scope).declareAll body).name = scope := declareAll_name (ofName scope) body
  rw [declare, rpcPlaces_eq]
  change [] ++ [(_, _)].flatMap _ = _
  simp [hname]

mutual

theorem mem_rpcPlaces_declare (item : Item) : ∀ {ns : Namespace}, ns.Sound →
    ∀ {place : List String × String},
      place ∈ (ns.declare item).rpcPlaces ↔ place ∈ ns.rpcPlaces ∨ place ∈ item.rpcPlaces := by
  intro ns h place
  cases item with
  | scope name body =>
    have halone := sound_declare (.scope name body) (.ofName ns.name)
    have hbody (place : List String × String) :
        place ∈ ((ofName name).declareAll body).rpcPlaces ↔ place ∈ Item.rpcPlacesAll body := by
      rw [mem_rpcPlaces_declareAll body (.ofName name)]
      exact or_iff_right List.not_mem_nil
    rw [declare_eq_merge ns _ (fun _ hname => by cases hname),
      mem_rpcPlaces_merge h.wellFormed halone.wellFormed, rpcPlaces_declare_scope, Item.rpcPlaces]
    simp only [List.mem_map, hbody]
  | rpc name input output =>
    obtain ⟨path, key⟩ := place
    have hordered := h.wellFormed.here.rpcs.ordered
    have hkeys : key ∈ (ns.rpcs.insert name ⟨name, input, [output]⟩).keys ↔
        key ∈ ns.rpcs.keys ∨ key = name := by
      rw [(hordered.insert name _).mem_keys, NameMap.contains_insert, hordered.mem_keys, or_comm]
    rw [declare, rpcPlaces_eq, rpcPlaces_eq ns, Item.rpcPlaces]
    simp only [List.mem_append, List.mem_map, List.mem_singleton, Prod.mk.injEq,
      exists_eq_right_right, hkeys]
    tauto
  | _ =>
    rw [show (ns.declare _).rpcPlaces = ns.rpcPlaces from rpcPlaces_congr rfl rfl]
    simp [Item.rpcPlaces]

theorem mem_rpcPlaces_declareAll (items : List Item) : ∀ {ns : Namespace}, ns.Sound →
    ∀ {place : List String × String},
      place ∈ (ns.declareAll items).rpcPlaces ↔
        place ∈ ns.rpcPlaces ∨ place ∈ Item.rpcPlacesAll items := by
  intro ns h place
  cases items with
  | nil => simp [declareAll, Item.rpcPlacesAll]
  | cons item items =>
    rw [declareAll, mem_rpcPlaces_declareAll items (sound_declare item h),
      mem_rpcPlaces_declare item h, Item.rpcPlacesAll, List.mem_append, or_assoc]

end

theorem perm_rpcPlaces_root (items : List Item) :
    (root.declareAll items).rpcPlaces.Perm (Item.rpcPlacesAll items).dedup := by
  have hsound := sound_declareAll items sound_root
  refine (List.perm_ext_iff_of_nodup (nodup_rpcPlaces hsound.wellFormed)
    (List.nodup_dedup _)).mpr fun place => ?_
  rw [mem_rpcPlaces_declareAll items sound_root, List.mem_dedup]
  exact or_iff_right List.not_mem_nil

end Namespace

theorem parseSource_events_of_cut {text : String} {ls : List Lexeme} (h : Cut text.toList ls) :
    (parseSource text).events = Parser.initial.reports (significant .origin ls) := by
  have htokens := tokenize_of_cut TokenKind.layout h
  rw [tokensFrom, List.filter_append] at htokens
  rw [parseSource, htokens]
  exact Parser.run_events rfl (kind_ne_endOfFile h .origin) .initial []

theorem Writes.rpcCount_add_dropped {text : String} {items : List Item}
    (h : Writes text.toList items) (hitems : Item.Admissible 0 items) :
    (Namespace.root.declareAll items).rpcCount + droppedRpcs (parseSource text).events =
      (Item.rpcPlacesAll items).length := by
  obtain ⟨ls, hcut, hbody⟩ := h
  rw [parseSource_events_of_cut hcut]
  have hcount := @Grammar.Body.rpcCount_declareAll _ _ (hbody .origin) .initial
    Namespace.sound_root hitems.rpcNames hitems.distinct hitems.depth (fun _ _ => rfl)
  exact hcount.trans (Nat.zero_add _)

theorem Writes.nodup_rpcPlacesAll_iff {text : String} {items : List Item}
    (h : Writes text.toList items) (hitems : Item.Admissible 0 items) :
    (Item.rpcPlacesAll items).Nodup ↔
      ∀ rpc scope, Event.rpcKept rpc scope ∉ (parseSource text).events := by
  have hcount := h.rpcCount_add_dropped hitems
  rw [Namespace.rpcCount, (Namespace.perm_rpcPlaces_root items).length_eq] at hcount
  rw [← droppedRpcs_eq_zero_iff, ← List.dedup_eq_self]
  constructor
  · intro heq
    rw [heq] at hcount
    omega
  · intro hzero
    exact (List.dedup_sublist _).eq_of_length (by omega)

theorem rpcPlaces_of_parseSource {text : String} {root : Namespace}
    (h : (parseSource text).value = .ok root) :
    ∃ items, (∀ others, Writes text.toList others ↔ others = items) ∧
      Item.Admissible 0 items ∧
      root.rpcPlaces.Perm (Item.rpcPlacesAll items).dedup ∧
      ((Item.rpcPlacesAll items).Nodup ↔
        ∀ rpc scope, Event.rpcKept rpc scope ∉ (parseSource text).events) := by
  obtain ⟨items, hwrites, hitems, rfl⟩ := writes_of_parseSource h
  refine ⟨items, fun others => ⟨fun hothers => hothers.unique hwrites, ?_⟩, hitems,
    Namespace.perm_rpcPlaces_root items, hwrites.nodup_rpcPlacesAll_iff hitems⟩
  rintro rfl
  exact hwrites

theorem rpcPlaces_of_disjoint_blocks :
    ∃ items, Writes "namespace a\x7brpc f()x\x7dnamespace a\x7brpc g()y\x7d".toList items ∧
      (Item.rpcPlacesAll items).Nodup := by
  have hparse : parseSource "namespace a\x7brpc f()x\x7dnamespace a\x7brpc g()y\x7d" =
      ⟨.ok (Namespace.root.declareAll
        [.scope "a" [.rpc "f" [] ⟨"x", []⟩, .rpc "g" [] ⟨"y", []⟩]]), []⟩ := by decide +kernel
  obtain ⟨items, hwrites, -, -, hnodup⟩ :=
    rpcPlaces_of_parseSource (congrArg Logged.value hparse)
  refine ⟨items, (hwrites items).mpr rfl, hnodup.mpr ?_⟩
  rw [hparse]
  exact fun _ _ => List.not_mem_nil

theorem reopened_scope_repeats_rpc :
    ∃ root items,
      (parseSource "namespace a\x7brpc f()x\x7dnamespace a\x7brpc f()y\x7d").value = .ok root ∧
      Writes "namespace a\x7brpc f()x\x7dnamespace a\x7brpc f()y\x7d".toList items ∧
      Item.rpcPlacesAll items = [(["a"], "f"), (["a"], "f")] := by
  have hparse : parseSource "namespace a\x7brpc f()x\x7dnamespace a\x7brpc f()y\x7d" =
      ⟨.ok (Namespace.root.declareAll [.scope "a" [.rpc "f" [] ⟨"x", []⟩]]),
        [.rpcKept "f" "a"]⟩ := by decide +kernel
  have hparsed := congrArg Logged.value hparse
  obtain ⟨items, hwrites, hitems, hroot⟩ := writes_of_parseSource hparsed
  have hplaces : (Namespace.root.declareAll items).rpcPlaces = [(["a"], "f")] := by
    rw [← hroot]
    rfl
  have hcount := hwrites.rpcCount_add_dropped hitems
  rw [Namespace.rpcCount, hplaces, hparse] at hcount
  -- Two declarations are written, and the one place that is kept is the place of both.
  refine ⟨_, items, hparsed, hwrites, List.eq_replicate_iff.mpr ⟨hcount.symm, ?_⟩⟩
  intro place hplace
  have hkept := (Namespace.perm_rpcPlaces_root items).mem_iff.mpr (List.mem_dedup.mpr hplace)
  rw [hplaces] at hkept
  exact List.mem_singleton.mp hkept

namespace Compilation

theorem droppedRpcs_add {origin text : String} {root : Namespace}
    (h : (parseSource text).value = .ok root) (c : Compilation) :
    droppedRpcs (c.add origin text).events =
      droppedRpcs (parseSource text).events + droppedRpcs (c.root.collisions root) := by
  unfold add
  split
  · simp_all
  · next parsed events hparsed =>
    obtain rfl : parsed = root := by simpa [hparsed] using h
    rw [hparsed]
    exact droppedRpcs_append events (parsedEvent origin parsed :: c.root.collisions parsed)

theorem events_addAll_cons {c next : Compilation} {origin text : String}
    {rest : List (String × String)} (h : (c.add origin text).value = .ok next) :
    (c.addAll ((origin, text) :: rest)).events =
      (c.add origin text).events ++ (next.addAll rest).events := by
  rw [addAll]
  split <;> simp_all [Logged.after]

end Compilation

theorem rpcCount_compileSources {sources : List (String × String)} {itemss : List (List Item)}
    (hwrites : List.Forall₂ (fun source items => Writes source.2.toList items) sources itemss)
    (hitemss : ∀ items ∈ itemss, Item.Admissible 0 items) :
    ((itemss.map Namespace.root.declareAll).foldl Namespace.merge .root).rpcCount +
        droppedRpcs (compileSources sources).events =
      (itemss.flatMap Item.rpcPlacesAll).length := by
  -- The compilation starts with an empty scope, and every source adds what it writes.
  have hadd : ∀ c : Compilation, c.root.WellFormed →
      ((itemss.map Namespace.root.declareAll).foldl Namespace.merge c.root).rpcCount +
          droppedRpcs (c.addAll sources).events =
        c.root.rpcCount + (itemss.flatMap Item.rpcPlacesAll).length := by
    induction hwrites with
    | nil => exact fun c _ => rfl
    | @cons source items sources itemss hsource _ ih =>
      intro c hc
      obtain ⟨hitems, hlater⟩ := List.forall_mem_cons.mp hitemss
      obtain ⟨origin, text⟩ := source
      have hparsed := parseSource_of_writes hsource hitems
      have hroot := (Namespace.sound_declareAll items Namespace.sound_root).wellFormed
      have hmerge := hroot.conserves hc
      have hcount := Writes.rpcCount_add_dropped hsource hitems
      have hrest := ih hlater ⟨c.root.merge (Namespace.root.declareAll items),
        c.sources ++ [origin]⟩ (hc.merge hroot)
      rw [Compilation.events_addAll_cons (Compilation.value_add hparsed c), droppedRpcs_append,
        Compilation.droppedRpcs_add hparsed, List.map_cons, List.foldl_cons, List.flatMap_cons,
        List.length_append]
      simp only at hrest hcount ⊢
      omega
  have htotal := hadd .initial Namespace.sound_root.wellFormed
  exact htotal.trans (Nat.zero_add _)

theorem compileSources_conserves_rpcs {sources : List (String × String)} {roots : List Namespace}
    (h : Parsed sources roots) :
    ∃ ns itemss, (compileSources sources).value = .ok ns ∧
      (∀ others, List.Forall₂ (fun source items => Writes source.2.toList items) sources others ↔
        others = itemss) ∧
      (itemss.flatMap Item.rpcPlacesAll).length =
        ns.rpcPlaces.length + droppedRpcs (compileSources sources).events := by
  obtain ⟨itemss, hwrites, hitemss, rfl⟩ := h.exists_items
  refine ⟨_, itemss, compileSources_of_parsed h, fun others => ⟨fun hothers => ?_, ?_⟩,
    (rpcCount_compileSources hwrites hitemss).symm⟩
  · have hunique : Relator.RightUnique fun (source : String × String) items =>
        Writes source.2.toList items := fun _ _ _ hx hy => hx.unique hy
    exact hunique.forall₂ hothers hwrites
  · rintro rfl
    exact hwrites

theorem rpcs_of_one_source_twice :
    ∃ (ns : Namespace) (itemss : List (List Item)),
      (compileSources [("a", "namespace n\x7brpc f()x\x7d"),
        ("b", "namespace n\x7brpc f()x\x7d")]).value = .ok ns ∧
      List.Forall₂ (fun source items => Writes source.2.toList items)
        [("a", "namespace n\x7brpc f()x\x7d"), ("b", "namespace n\x7brpc f()x\x7d")] itemss ∧
      ns.rpcPlaces = [(["n"], "f")] ∧ (itemss.flatMap Item.rpcPlacesAll).length = 2 := by
  have hparse : parseSource "namespace n\x7brpc f()x\x7d" =
      ⟨.ok (Namespace.root.declareAll [.scope "n" [.rpc "f" [] ⟨"x", []⟩]]), []⟩ := by
    decide +kernel
  have hvalue := congrArg Logged.value hparse
  have hparsed : Parsed [("a", "namespace n\x7brpc f()x\x7d"),
      ("b", "namespace n\x7brpc f()x\x7d")] _ := .cons hvalue (.cons hvalue .nil)
  have hdropped : droppedRpcs (compileSources [("a", "namespace n\x7brpc f()x\x7d"),
      ("b", "namespace n\x7brpc f()x\x7d")]).events = 1 := by
    simp only [compileSources, Logged.map, Compilation.addAll, Compilation.add, hparse]
    rfl
  obtain ⟨ns, itemss, hns, hwrites, hcount⟩ := compileSources_conserves_rpcs hparsed
  have hplaces : ns.rpcPlaces = [(["n"], "f")] := by
    obtain rfl := Except.ok.inj (hns.symm.trans (compileSources_of_parsed hparsed))
    rfl
  refine ⟨ns, itemss, hns, (hwrites itemss).mpr rfl, hplaces, ?_⟩
  rw [hcount, hplaces, hdropped]
  rfl

end InterfaceSchema
