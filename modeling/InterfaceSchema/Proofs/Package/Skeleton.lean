import InterfaceSchema.Proofs.Package.Preorder
import Mathlib.Data.List.Forall2

namespace InterfaceSchema

inductive Namespace.SameSkeleton (config : Config) : Namespace → Namespace → Prop
  | scope {a b : Namespace} : a.name = b.name →
      a.option? config.nameOption = b.option? config.nameOption →
      a.option? config.importOption = b.option? config.importOption →
      a.children.keys = b.children.keys →
      List.Forall₂ (SameSkeleton config) a.children.values b.children.values →
      SameSkeleton config a b

namespace Package

open Namespace (SameSkeleton)

-- The package without what its namespace declares and what it depends on.
def identity (p : Package) : Package :=
  { p with scope := .ofName p.scope.name, dependencies := [] }

theorem identity_withChildren {p q : Package} (h : p.identity = q.identity)
    (children : List PackageId) :
    identity { p with children := children } = identity { q with children := children } :=
  congrArg (fun r : Package => { r with children := children }) h

variable {config : Config} {a b : Namespace} {outer outer' : Package}

theorem displayName_eq (h : SameSkeleton config a b) (outermost : Bool) :
    displayName config outermost a = displayName config outermost b := by
  obtain ⟨hname, hoption, -, -, -⟩ := h
  rw [displayName, displayName, hoption, Namespace.isRoot, Namespace.isRoot, hname]

theorem identity_ofRoot (h : SameSkeleton config a b) (id : PackageId) (n : Nat) :
    (ofRoot config id n a).identity = (ofRoot config id n b).identity := by
  have hdisplay := displayName_eq h true
  obtain ⟨hname, -, himport, -, -⟩ := h
  simp only [ofRoot, identity, hdisplay, hname, himport]

theorem identity_ofChild (h : SameSkeleton config a b) (houter : outer.identity = outer'.identity)
    (id : PackageId) (n : Nat) :
    (ofChild config outer id n a).identity = (ofChild config outer' id n b).identity := by
  have hdisplay := displayName_eq h false
  have hpath : outer.path = outer'.path := (congrArg path houter :)
  have himportPath : outer.importPath = outer'.importPath := (congrArg importPath houter :)
  have hscopes : outer.scopes = outer'.scopes := (congrArg scopes houter :)
  obtain ⟨hname, -, himport, -, -⟩ := h
  simp only [ofChild, identity, hdisplay, hname, himport, hpath, himportPath, hscopes]

theorem identity_ofScope (h : SameSkeleton config a b) {parent parent' : Option Package}
    (hparent : parent.map identity = parent'.map identity) (id : PackageId) (n : Nat) :
    (ofScope config parent id n a).identity = (ofScope config parent' id n b).identity := by
  cases parent with
  | none =>
    obtain rfl := Option.map_eq_none_iff.mp hparent.symm
    exact identity_ofRoot h id n
  | some outer =>
    obtain ⟨outer', rfl, houter⟩ := Option.map_eq_some_iff.mp hparent.symm
    exact identity_ofChild h houter.symm id n

end Package

namespace Laid

variable {l l' : Laid}

def identity (l : Laid) : Laid :=
  { l with packages := l.packages.map Package.identity }

theorem map_identity_siblings (l : Laid) :
    l.siblings.map Package.identity = l.identity.siblings := by
  have hle (p q : Package) : p.siblingLe q = p.identity.siblingLe q.identity := rfl
  have hfind (id : PackageId) : l.identity.packages.find? (·.id == id) =
      (l.packages.find? (·.id == id)).map Package.identity :=
    List.find?_map
  rw [siblings, siblings, List.map_mergeSort fun p _ q _ => hle p q, outermost, outermost,
    List.map_filterMap]
  simp only [hfind]
  rfl

theorem map_id_siblings (h : l.identity = l'.identity) :
    l.siblings.map Package.id = l'.siblings.map Package.id := by
  have hsiblings : l.siblings.map Package.identity = l'.siblings.map Package.identity := by
    rw [map_identity_siblings, map_identity_siblings, h]
  have hids := congrArg (List.map Package.id) hsiblings
  rwa [List.map_map, List.map_map] at hids

theorem length_packages (h : l.identity = l'.identity) :
    l.packages.length = l'.packages.length := by
  have hlength := congrArg (·.packages.length) h
  simpa only [identity, List.length_map] using hlength

end Laid

namespace Package

open Namespace (SameSkeleton)

variable {config : Config} {a b : Namespace} {outer outer' : Package}

theorem identity_layoutChildren {as bs : List (String × Namespace)}
    (h : List.Forall₂ (SameSkeleton config) (as.map Prod.snd) (bs.map Prod.snd))
    (hlayout : ∀ x ∈ as.map Prod.snd, ∀ y, SameSkeleton config x y → ∀ id n,
      (layout config (some outer) id n x).value.identity =
        (layout config (some outer') id n y).value.identity)
    (next : PackageId) (n : Nat) :
    (layoutChildren config outer next n as).value.identity =
      (layoutChildren config outer' next n bs).value.identity := by
  induction as generalizing bs next n with
  | nil =>
    obtain rfl := List.map_eq_nil_iff.mp (List.forall₂_nil_left_iff.mp h)
    rw [layoutChildren, layoutChildren]
  | cons entry as ih =>
    obtain ⟨key, child⟩ := entry
    cases bs with
    | nil => cases h
    | cons other bs =>
      obtain ⟨hchild, hrest⟩ := List.forall₂_cons.mp h
      obtain ⟨hfirst, hlayout⟩ := List.forall_mem_cons.mp hlayout
      have hfirst := hfirst other.2 hchild next n
      have hlength := Laid.length_packages hfirst
      have hothers := ih hrest hlayout
        (next + (layout config (some outer') next n other.2).value.packages.length)
        (layout config (some outer') next n other.2).value.nextNumber
      simp only [Laid.identity, Laid.mk.injEq] at hfirst hothers ⊢
      simp only [layoutChildren, List.map_append, hlength, hfirst, hothers, and_self]

theorem identity_layout (h : SameSkeleton config a b) {parent parent' : Option Package}
    (hparent : parent.map identity = parent'.map identity) (id : PackageId) (n : Nat) :
    (layout config parent id n a).value.identity =
      (layout config parent' id n b).value.identity := by
  induction a using Namespace.induction generalizing b parent parent' id n with
  | step a ih =>
    have hfirst := identity_ofScope h hparent id n
    obtain ⟨-, -, -, -, hchildren⟩ := h
    have hbelow := identity_layoutChildren hchildren
      (fun x hx y hxy => ih x hx hxy (congrArg some hfirst)) (id + 1) (n + 1)
    have hpackages := congrArg Laid.packages hbelow
    simp only [Laid.identity, Laid.mk.injEq]
    refine ⟨?_, ?_, ?_⟩
    · rw [packages_layout, packages_layout, List.map_cons, List.map_cons,
        Laid.map_id_siblings hbelow, identity_withChildren hfirst]
      exact congrArg _ hpackages
    · rw [ids_layout, ids_layout]
    · rw [nextNumber_layout, nextNumber_layout]
      exact (congrArg Laid.nextNumber hbelow :)

structure SameIdentity (p q : Package) : Prop where
  id : p.id = q.id
  number : p.number = q.number
  name : p.name = q.name
  namespaceName : p.scope.name = q.scope.name
  path : p.path = q.path
  importPath : p.importPath = q.importPath
  mangledId : p.mangledId = q.mangledId
  parent : p.parent? = q.parent?
  children : p.children = q.children

theorem SameIdentity.of_identity_eq {p q : Package} (h : p.identity = q.identity) :
    p.SameIdentity q where
  id := (congrArg Package.id h :)
  number := (congrArg Package.number h :)
  name := (congrArg Package.name h :)
  namespaceName := (congrArg (·.scope.name) h :)
  path := (congrArg Package.path h :)
  importPath := (congrArg Package.importPath h :)
  mangledId := (congrArg Package.mangledId h :)
  parent := (congrArg Package.parent? h :)
  children := (congrArg Package.children h :)

end Package

namespace PackageTree

open Namespace (SameSkeleton)

theorem map_identity_packages {config : Config} {a b : Namespace} (h : SameSkeleton config a b) :
    (build config a).value.packages.map Package.identity =
      (build config b).value.packages.map Package.identity := by
  have hlaid := @Package.identity_layout config a b h none none rfl 0 1
  rw [packages_build, packages_build, List.map_map, List.map_map]
  exact (congrArg Laid.packages hlaid :)

theorem sameIdentity_of_sameSkeleton {config : Config} {a b : Namespace}
    (h : SameSkeleton config a b) :
    List.Forall₂ Package.SameIdentity (build config a).value.packages
      (build config b).value.packages := by
  have heq := List.forall₂_eq_eq_eq ▸ map_identity_packages h
  rw [List.forall₂_map_left_iff, List.forall₂_map_right_iff] at heq
  exact heq.imp fun _ _ => .of_identity_eq

theorem sameIdentity_of_edited_declarations :
    ∃ a b : Namespace, SameSkeleton .standard a b ∧
      a.rpcs.size = 0 ∧ b.rpcs.size = 1 ∧
      (build .standard a).value.unresolved = [] ∧
      (build .standard b).value.unresolved = [⟨0, "rpc f", "T"⟩] ∧
      List.Forall₂ Package.SameIdentity (build .standard a).value.packages
        (build .standard b).value.packages := by
  have h : SameSkeleton .standard
      (Namespace.root.declareAll
        [.scope "n" [.option "package" "p", .type "T" [], .option "note" "x"]])
      (Namespace.root.declareAll
        [.rpc "f" [] ⟨"T", []⟩, .scope "n" [.enum "E" ["x"], .option "package" "p"]]) :=
    .scope rfl rfl rfl rfl (.cons (.scope rfl rfl rfl rfl .nil) .nil)
  exact ⟨_, _, h, rfl, rfl, rfl, rfl, sameIdentity_of_sameSkeleton h⟩

end PackageTree

end InterfaceSchema
