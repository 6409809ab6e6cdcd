import InterfaceSchema.Proofs.Parser.Writing
import InterfaceSchema.Proofs.Schema.Denotation
import InterfaceSchema.Proofs.Lists

namespace InterfaceSchema

def Parsed (sources : List (String × String)) (roots : List Namespace) : Prop :=
  List.Forall₂ (fun source root => (parseSource source.2).value = .ok root) sources roots

def joinedText (sources : List (String × String)) : String :=
  "\n".intercalate (sources.map Prod.snd)

theorem Compilation.value_add {origin text : String} {root : Namespace}
    (h : (parseSource text).value = .ok root) (c : Compilation) :
    (c.add origin text).value = .ok ⟨c.root.merge root, c.sources ++ [origin]⟩ := by
  unfold add
  split <;> simp_all

theorem Compilation.value_add_of_error {origin text : String} {cause : Diagnostic}
    (h : (parseSource text).value = .error cause) (c : Compilation) :
    (c.add origin text).value = .error (.inSource origin cause) := by
  unfold add
  split <;> simp_all

theorem Compilation.value_addAll_cons {c next : Compilation} {origin text : String}
    {rest : List (String × String)} (h : (c.add origin text).value = .ok next) :
    (c.addAll ((origin, text) :: rest)).value = (next.addAll rest).value := by
  rw [addAll]
  split <;> simp_all [Logged.after]

theorem Compilation.value_addAll_of_parsed {sources : List (String × String)}
    {roots : List Namespace} (h : Parsed sources roots) (c : Compilation) :
    (c.addAll sources).value =
      .ok ⟨roots.foldl Namespace.merge c.root, c.sources ++ sources.map Prod.fst⟩ := by
  induction h generalizing c with
  | nil => simp [addAll, Logged.silent]
  | @cons source root sources roots hsource _ ih =>
    rw [value_addAll_cons (value_add hsource c), ih]
    simp

theorem compileSources_of_parsed {sources : List (String × String)} {roots : List Namespace}
    (h : Parsed sources roots) :
    (compileSources sources).value = .ok (roots.foldl Namespace.merge .root) := by
  rw [compileSources, Logged.map, Compilation.value_addAll_of_parsed h]
  rfl

theorem Compilation.exists_parsed {c last : Compilation} {sources : List (String × String)}
    (h : (c.addAll sources).value = .ok last) : ∃ roots, Parsed sources roots := by
  induction sources generalizing c with
  | nil => exact ⟨[], .nil⟩
  | cons source sources ih =>
    obtain ⟨origin, text⟩ := source
    cases hparsed : (parseSource text).value with
    | error error =>
      have hadd := @value_add_of_error origin text error hparsed c
      rw [addAll] at h
      split at h <;> simp_all
    | ok root =>
      rw [value_addAll_cons (value_add hparsed c)] at h
      obtain ⟨roots, hroots⟩ := ih h
      exact ⟨root :: roots, .cons hparsed hroots⟩

theorem parsed_of_compileSources {sources : List (String × String)} {ns : Namespace}
    (h : (compileSources sources).value = .ok ns) :
    ∃ roots, Parsed sources roots ∧ ns = roots.foldl Namespace.merge .root := by
  cases hlast : (Compilation.initial.addAll sources).value with
  | error error =>
    rw [compileSources, Logged.map, hlast] at h
    cases h
  | ok last =>
    obtain ⟨roots, hroots⟩ := Compilation.exists_parsed hlast
    exact ⟨roots, hroots, Except.ok.inj (h.symm.trans (compileSources_of_parsed hroots))⟩

-- What every source has and merging keeps, every compilation has.
theorem compileSources_induction {P : Namespace → Prop} (hroot : P .root)
    (hparse : ∀ {text ns}, (parseSource text).value = .ok ns → P ns)
    (hmerge : ∀ {a b}, P a → P b → P (a.merge b)) {sources : List (String × String)}
    {ns : Namespace} (h : (compileSources sources).value = .ok ns) : P ns := by
  obtain ⟨roots, hroots, rfl⟩ := parsed_of_compileSources h
  have hfold : ∀ {ns}, P ns → P (roots.foldl Namespace.merge ns) := by
    clear h
    induction hroots with
    | nil => exact id
    | cons hsource _ ih => exact fun hns => ih (hmerge hns (hparse hsource))
  exact hfold hroot

theorem Parsed.exists_items {sources : List (String × String)} {roots : List Namespace}
    (h : Parsed sources roots) :
    ∃ itemss : List (List Item),
      List.Forall₂ (fun source items => Writes source.2.toList items) sources itemss ∧
      (∀ items ∈ itemss, Item.Admissible 0 items) ∧
      roots = itemss.map Namespace.root.declareAll := by
  induction h with
  | nil => exact ⟨[], .nil, nofun, rfl⟩
  | cons hsource _ ih =>
    obtain ⟨items, hwrites, hitems, rfl⟩ := writes_of_parseSource hsource
    obtain ⟨itemss, hsources, hitemss, rfl⟩ := ih
    refine ⟨items :: itemss, .cons hwrites hsources, ?_, rfl⟩
    intro other hother
    rcases List.mem_cons.mp hother with rfl | hother
    · exact hitems
    · exact hitemss other hother

theorem writes_joinedText {sources : List (String × String)} {itemss : List (List Item)}
    (h : List.Forall₂ (fun source items => Writes source.2.toList items) sources itemss) :
    Writes (joinedText sources).toList itemss.flatten := by
  rw [joinedText, String.toList_intercalate]
  induction h with
  | nil => exact .nil
  | @cons source items sources itemss hsource hsources ih =>
    cases hsources with
    | nil => simpa using hsource
    | cons hnext hlater =>
      simp only [List.map_cons, List.intercalate_cons_cons] at ih ⊢
      rw [List.append_assoc]
      exact hsource.append_line ih

def Namespace.SharesRpc (a b : Namespace) (name : String) : Prop :=
  a.rpcs.contains name = true ∧ b.rpcs.contains name = true

theorem Namespace.sound_root : root.Sound :=
  Sound.ofName rootName

theorem Namespace.contains_root_declareAll {items : List Item} {name : String} :
    (root.declareAll items).rpcs.contains name = true ↔ name ∈ Item.rpcNames items := by
  rw [contains_declareAll_rpcs]
  exact or_iff_right nofun

theorem Item.rpcNames_flatten (itemss : List (List Item)) :
    rpcNames itemss.flatten = (itemss.map rpcNames).flatten :=
  List.filterMap_flatten

theorem nodup_rpcNames_flatten_iff {itemss : List (List Item)}
    (h : ∀ items ∈ itemss, (Item.rpcNames items).Nodup) :
    (Item.rpcNames itemss.flatten).Nodup ↔
      (itemss.map Namespace.root.declareAll).Pairwise fun a b => ∀ name, ¬ a.SharesRpc b name := by
  rw [Item.rpcNames_flatten, List.nodup_flatten, List.pairwise_map, List.pairwise_map]
  have hall : ∀ names ∈ itemss.map Item.rpcNames, names.Nodup := by
    rintro _ hnames
    obtain ⟨items, hitems, rfl⟩ := List.mem_map.mp hnames
    exact h items hitems
  rw [and_iff_right hall]
  simp only [Namespace.SharesRpc, Namespace.contains_root_declareAll, not_and]
  exact Iff.rfl

theorem not_pairwise_of_duplicate {itemss : List (List Item)} {name : String}
    (h : ∀ items ∈ itemss, (Item.rpcNames items).Nodup)
    (hname : (Item.rpcNames itemss.flatten).Duplicate name) :
    ¬ (itemss.map Namespace.root.declareAll).Pairwise fun a b => ¬ a.SharesRpc b name := by
  induction itemss with
  | nil => exact absurd hname (List.not_duplicate_nil name)
  | cons items itemss ih =>
    intro hpairwise
    obtain ⟨hfirst, hrest⟩ := List.pairwise_cons.mp hpairwise
    rw [List.flatten_cons, Item.rpcNames_append] at hname
    rcases List.duplicate_append hname with hitems | hlater | ⟨hitems, hlater⟩
    · exact List.nodup_iff_forall_not_duplicate.mp (h items List.mem_cons_self) name hitems
    · exact ih (fun other hother => h other (List.mem_cons_of_mem items hother)) hlater hrest
    · rw [Item.rpcNames_flatten, List.mem_flatten] at hlater
      obtain ⟨_, hmem, hlater⟩ := hlater
      obtain ⟨other, hother, rfl⟩ := List.mem_map.mp hmem
      exact hfirst _ (List.mem_map_of_mem hother) ⟨Namespace.contains_root_declareAll.mpr hitems,
        Namespace.contains_root_declareAll.mpr hlater⟩

theorem foldl_merge_eq_declareAll {itemss : List (List Item)} {ns : Namespace}
    (hns : ns.Sound) (hname : ns.name = Namespace.rootName)
    (hnodup : (Item.rpcNames itemss.flatten).Nodup)
    (hnew : ∀ name ∈ Item.rpcNames itemss.flatten, ns.rpcs.contains name = false) :
    (itemss.map Namespace.root.declareAll).foldl Namespace.merge ns =
      ns.declareAll itemss.flatten := by
  induction itemss generalizing ns with
  | nil => rw [List.flatten_nil, Namespace.declareAll, List.map_nil, List.foldl_nil]
  | cons items itemss ih =>
    rw [List.flatten_cons, Item.rpcNames_append] at hnodup hnew
    obtain ⟨hitems, hitemss, hdisjoint⟩ := List.nodup_append.mp hnodup
    have hmerge : ns.declareAll items = ns.merge (Namespace.root.declareAll items) := by
      rw [Namespace.declareAll_eq_merge hns hitems
        fun name hmem => hnew name (List.mem_append_left _ hmem), hname]
      rfl
    rw [List.map_cons, List.foldl_cons, ← hmerge, List.flatten_cons, Namespace.declareAll_append]
    refine ih (Namespace.sound_declareAll items hns) ?_ hitemss ?_
    · rw [Namespace.declareAll_name, hname]
    · intro name hmem
      rw [Bool.eq_false_iff, ne_eq, Namespace.contains_declareAll_rpcs, not_or]
      refine ⟨?_, fun hitem => hdisjoint name hitem name hmem rfl⟩
      rw [hnew name (List.mem_append_right _ hmem)]
      exact Bool.false_ne_true

theorem Item.depthAll_flatten_le {limit : Nat} {itemss : List (List Item)}
    (h : ∀ items ∈ itemss, depthAll items ≤ limit) : depthAll itemss.flatten ≤ limit := by
  induction itemss with
  | nil => exact Nat.zero_le limit
  | cons items itemss ih =>
    rw [List.flatten_cons, depthAll_append]
    exact Nat.max_le.mpr ⟨h items List.mem_cons_self,
      ih fun other hother => h other (List.mem_cons_of_mem items hother)⟩

theorem Item.distinctAll_flatten {itemss : List (List Item)}
    (h : ∀ items ∈ itemss, DistinctAll items) : DistinctAll itemss.flatten := by
  induction itemss with
  | nil => exact trivial
  | cons items itemss ih =>
    rw [List.flatten_cons, distinctAll_append]
    exact ⟨h items List.mem_cons_self,
      ih fun other hother => h other (List.mem_cons_of_mem items hother)⟩

theorem compileSources_eq_parseSource_joinedText {sources : List (String × String)}
    {roots : List Namespace} (h : Parsed sources roots) :
    ∃ ns, (compileSources sources).value = .ok ns ∧
      ((roots.Pairwise fun a b => ∀ name, ¬ a.SharesRpc b name) →
        (parseSource (joinedText sources)).value = .ok ns) ∧
      ((¬ roots.Pairwise fun a b => ∀ name, ¬ a.SharesRpc b name) →
        ∃ name token, (¬ roots.Pairwise fun a b => ¬ a.SharesRpc b name) ∧
          (parseSource (joinedText sources)).value =
            .error (.ofParseError ⟨.rpcRepeated name, token⟩)) := by
  obtain ⟨itemss, hwrites, hitemss, rfl⟩ := h.exists_items
  have hjoined := writes_joinedText hwrites
  have hnodup : ∀ items ∈ itemss, (Item.rpcNames items).Nodup :=
    fun items hmem => (hitemss items hmem).rpcNames
  have hdistinct := Item.distinctAll_flatten fun items hmem => (hitemss items hmem).distinct
  have hdepth : Item.depthAll itemss.flatten ≤ nestingLimit :=
    Item.depthAll_flatten_le fun items hmem => by simpa using (hitemss items hmem).depth
  refine ⟨_, compileSources_of_parsed h, ?_, ?_⟩
  · intro hdisjoint
    have hflat := (nodup_rpcNames_flatten_iff hnodup).mpr hdisjoint
    rw [foldl_merge_eq_declareAll Namespace.sound_root rfl hflat fun _ _ => rfl]
    exact parseSource_of_writes hjoined ⟨hflat, hdistinct, by simpa using hdepth⟩
  · intro hshared
    have hflat := mt (nodup_rpcNames_flatten_iff hnodup).mp hshared
    obtain ⟨name, token, hname, herror⟩ := parseSource_of_repeated hjoined hdistinct hdepth hflat
    exact ⟨name, token, not_pairwise_of_duplicate hnodup hname, herror⟩

theorem joined_texts_of_two_rpcs :
    (∃ ns, (compileSources [("a", "rpc f() void"), ("b", "rpc g() void")]).value = .ok ns ∧
      (parseSource "rpc f() void\nrpc g() void").value = .ok ns) ∧
    ∃ ns, (compileSources [("a", "rpc f() void"), ("b", "rpc f() void")]).value = .ok ns ∧
      ∃ name token, (parseSource "rpc f() void\nrpc f() void").value =
        .error (.ofParseError ⟨.rpcRepeated name, token⟩) := by
  have hf : (parseSource "rpc f() void").value =
      .ok (Namespace.root.declareAll [.rpc "f" [] ⟨"void", []⟩]) := by decide +kernel
  have hg : (parseSource "rpc g() void").value =
      .ok (Namespace.root.declareAll [.rpc "g" [] ⟨"void", []⟩]) := by decide +kernel
  constructor
  · obtain ⟨ns, hns, hjoined, -⟩ := @compileSources_eq_parseSource_joinedText
      [("a", "rpc f() void"), ("b", "rpc g() void")] _ (.cons hf (.cons hg .nil))
    refine ⟨ns, hns, hjoined (List.pairwise_pair.mpr ?_)⟩
    rintro name ⟨hname, hname'⟩
    obtain rfl := List.mem_singleton.mp (Namespace.contains_root_declareAll.mp hname)
    cases hname'
  · obtain ⟨ns, hns, -, hshared⟩ := @compileSources_eq_parseSource_joinedText
      [("a", "rpc f() void"), ("b", "rpc f() void")] _ (.cons hf (.cons hf .nil))
    obtain ⟨name, token, -, herror⟩ := hshared fun hdisjoint =>
      List.pairwise_pair.mp hdisjoint "f" ⟨rfl, rfl⟩
    exact ⟨ns, hns, name, token, herror⟩

end InterfaceSchema
