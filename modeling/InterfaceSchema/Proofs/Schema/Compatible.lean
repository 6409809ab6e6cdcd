import InterfaceSchema.Proofs.Schema.Lookup
import InterfaceSchema.Proofs.Schema.Monoid
import Mathlib.Algebra.BigOperators.Group.List.Lemmas

namespace InterfaceSchema

theorem merge_comm_of_agree {α : Type} {combine : α → α → α} {x y : Option α}
    (h : ∀ a b, x = some a → y = some b → combine a b = combine b a) :
    Option.merge combine x y = Option.merge combine y x := by
  cases x <;> cases y <;> simp_all

theorem or_comm_of_agree {α : Type} {x y : Option α}
    (h : ∀ a b, x = some a → y = some b → a = b) : x.or y = y.or x := by
  cases x <;> cases y <;> simp_all

theorem RecordType.merge_comm {a b : RecordType} (hname : a.name = b.name)
    (ha : a.properties.Indexed Property.name) (hb : b.properties.Indexed Property.name)
    (h : ∀ key p q, a.properties.get? key = some p → b.properties.get? key = some q →
      p.type = q.type) : a.merge b = b.merge a := by
  refine ext_properties hname (ordered_merge ha.ordered b) (ordered_merge hb.ordered a) ?_
  intro key
  rw [get?_merge_properties a hb, get?_merge_properties b ha]
  refine or_comm_of_agree fun q p hq hp => ?_
  have hnames : q.name = p.name := (hb.named hq).trans (ha.named hp).symm
  have htypes : q.type = p.type := (h key p q hp hq).symm
  cases p
  cases q
  simp_all

theorem EnumType.merge_comm {a b : EnumType} (hname : a.name = b.name)
    (h : a.members = b.members) : a.merge b = b.merge a := by
  cases a
  cases b
  simp_all

namespace Namespace

variable {α : Type} {a b x y : Namespace} {key : String}

def AgreeOn (look : Namespace → Option α) (a b : Namespace) : Prop :=
  ∀ x y, look a = some x → look b = some y → x = y

structure Compatible (a b : Namespace) : Prop where
  options : ∀ path key, AgreeOn (optionAt? path key) a b
  properties : ∀ path key name,
    AgreeOn (fun ns => (ns.propertyAt? path key name).map Property.type) a b
  enums : ∀ path key, AgreeOn (fun ns => (ns.enumAt? path key).map EnumType.members) a b
  rpcs : ∀ path key, AgreeOn (rpcAt? path key) a b

theorem scopeAt?_cons (h : a.children.get? key = some x) (path : List String) :
    a.scopeAt? (key :: path) = x.scopeAt? path := by
  rw [scopeAt?, h, Option.bind_some]

theorem Compatible.child (h : a.Compatible b) (hx : a.children.get? key = some x)
    (hy : b.children.get? key = some y) : x.Compatible y where
  options path other := by
    have hagree := h.options (key :: path) other
    simpa only [AgreeOn, optionAt?, scopeAt?_cons hx, scopeAt?_cons hy] using hagree
  properties path other name := by
    have hagree := h.properties (key :: path) other name
    simpa only [AgreeOn, propertyAt?, typeAt?, scopeAt?_cons hx, scopeAt?_cons hy] using hagree
  enums path other := by
    have hagree := h.enums (key :: path) other
    simpa only [AgreeOn, enumAt?, scopeAt?_cons hx, scopeAt?_cons hy] using hagree
  rpcs path other := by
    have hagree := h.rpcs (key :: path) other
    simpa only [AgreeOn, rpcAt?, scopeAt?_cons hx, scopeAt?_cons hy] using hagree

theorem Compatible.members_eq (h : a.Compatible b) {e f : EnumType}
    (he : a.enums.get? key = some e) (hf : b.enums.get? key = some f) :
    e.members = f.members := by
  refine h.enums [] key _ _ ?_ ?_
  · exact congrArg (Option.map EnumType.members) he
  · exact congrArg (Option.map EnumType.members) hf

theorem Compatible.property_type_eq (h : a.Compatible b) {t u : RecordType}
    (ht : a.types.get? key = some t) (hu : b.types.get? key = some u) {name : String}
    {p q : Property} (hp : t.properties.get? name = some p)
    (hq : u.properties.get? name = some q) : p.type = q.type := by
  have hlook : ∀ {ns : Namespace} {type : RecordType}, ns.types.get? key = some type →
      ns.propertyAt? [] key name = type.properties.get? name := fun htype =>
    congrArg (Option.bind · _) htype
  refine h.properties [] key name _ _ ?_ ?_
  · exact congrArg (Option.map Property.type) ((hlook ht).trans hp)
  · exact congrArg (Option.map Property.type) ((hlook hu).trans hq)

theorem WellFormed.merge_comm (ha : a.WellFormed) (hb : b.WellFormed) (hname : a.name = b.name)
    (h : a.Compatible b) : a.merge b = b.merge a := by
  induction ha generalizing b with
  | @intro a ha _ ih =>
    have hb' := hb.here
    refine (ha.merge hb').ext (hb'.merge ha) ?_ ?_ ?_ ?_ ?_ ?_
    · rw [merge_name, merge_name, hname]
    · intro key
      rw [hb'.get?_merge_children, ha.get?_merge_children]
      refine merge_comm_of_agree fun x y hx hy => ih hx (hb.child hy) ?_ (h.child hx hy)
      exact (ha.children.named hx).trans (hb'.children.named hy).symm
    · intro key
      rw [hb'.get?_merge_options, ha.get?_merge_options]
      exact or_comm_of_agree fun x y hx hy => (h.options [] key y x hy hx).symm
    · intro key
      rw [hb'.get?_merge_types, ha.get?_merge_types]
      refine merge_comm_of_agree fun t u ht hu => ?_
      exact RecordType.merge_comm ((ha.types.named ht).trans (hb'.types.named hu).symm)
        (ha.properties ht) (hb'.properties hu) fun name p q hp hq =>
          h.property_type_eq ht hu hp hq
    · intro key
      rw [hb'.get?_merge_enums, ha.get?_merge_enums]
      refine merge_comm_of_agree fun e f he hf => ?_
      exact EnumType.merge_comm ((ha.enums.named he).trans (hb'.enums.named hf).symm)
        (h.members_eq he hf)
    · intro key
      rw [hb'.get?_merge_rpcs, ha.get?_merge_rpcs]
      exact or_comm_of_agree (h.rpcs [] key)

theorem commute_of_compatible {t u : Tree} (hname : t.scope.name = u.scope.name)
    (h : t.scope.Compatible u.scope) : Commute t u :=
  Tree.ext (t.wellFormed.merge_comm u.wellFormed hname h)

theorem foldl_merge_perm {ns : Namespace} (hns : ns.WellFormed) {roots others : List Namespace}
    (hroots : ∀ root ∈ roots, root.WellFormed) {name : String}
    (hname : ∀ root ∈ roots, root.name = name) (h : roots.Pairwise Compatible)
    (hperm : roots.Perm others) : roots.foldl merge ns = others.foldl merge ns := by
  have hothers : ∀ root ∈ others, root.WellFormed := fun root hroot =>
    hroots root (hperm.mem_iff.mpr hroot)
  have hcommute : (roots.pmap Tree.mk hroots).Pairwise Commute := by
    refine (List.pairwise_pmap hroots).mpr (h.imp_of_mem ?_)
    intro a b ha hb hab _ _
    exact commute_of_compatible ((hname a ha).trans (hname b hb).symm) hab
  have hscopes : ∀ {trees : List Namespace} (htrees : ∀ tree ∈ trees, tree.WellFormed),
      (trees.pmap Tree.mk htrees).map Tree.scope = trees := fun htrees => by
    simp [List.map_pmap]
  calc roots.foldl merge ns
      = ((roots.pmap Tree.mk hroots).map Tree.scope).foldl merge ns := by rw [hscopes hroots]
    _ = (⟨ns, hns⟩ * (roots.pmap Tree.mk hroots).prod : Tree).scope :=
        Tree.foldl_merge_eq_prod ⟨ns, hns⟩ _
    _ = (⟨ns, hns⟩ * (others.pmap Tree.mk hothers).prod : Tree).scope := by
        rw [(hperm.pmap Tree.mk).prod_eq' hcommute]
    _ = ((others.pmap Tree.mk hothers).map Tree.scope).foldl merge ns :=
        (Tree.foldl_merge_eq_prod ⟨ns, hns⟩ _).symm
    _ = others.foldl merge ns := by rw [hscopes hothers]

end Namespace

end InterfaceSchema
