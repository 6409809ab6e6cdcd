import InterfaceSchema.Proofs.Package.Layout
import InterfaceSchema.Proofs.Text.Path
import Mathlib.Data.String.Basic

namespace InterfaceSchema

namespace Package

theorem underscore_not_mem_repr (n : Nat) : '_' ∉ n.repr.toList := by
  intro h
  rw [Nat.toList_repr] at h
  have hdigit := Nat.isDigit_of_mem_toDigits (by decide) (by decide) h
  exact absurd hdigit (by decide)

theorem exists_mangle_eq (config : Config) (importPath path : String) (number : Nat) :
    ∃ stem, mangle config importPath path number = stem ++ "_" ++ number.repr := by
  generalize hwords : Text.snakeCase (if importPath.isEmpty then path else importPath) = words
  rw [mangle, hwords]
  split
  · exact ⟨config.manglePrefix, rfl⟩
  · exact ⟨config.manglePrefix ++ "_" ++ words, rfl⟩

theorem number_eq_of_mangle_eq {config : Config} {importPath path importPath' path' : String}
    {n m : Nat} (h : mangle config importPath path n = mangle config importPath' path' m) :
    n = m := by
  obtain ⟨stem, hn⟩ := exists_mangle_eq config importPath path n
  obtain ⟨stem', hm⟩ := exists_mangle_eq config importPath' path' m
  have hchars : stem.toList ++ '_' :: n.repr.toList = stem'.toList ++ '_' :: m.repr.toList := by
    simpa using congrArg String.toList (hn.symm.trans (h.trans hm))
  have hdigits : Nat.toDigits 10 n = Nat.toDigits 10 m := by
    rw [← Nat.toList_repr, ← Nat.toList_repr]
    exact (List.eq_of_append_cons_eq hchars (underscore_not_mem_repr n)
      (underscore_not_mem_repr m)).2
  simpa using congrArg (Nat.ofDigitChars 10 · 0) hdigits

theorem mangledId_ofScope (config : Config) (parent : Option Package) (id : PackageId) (n : Nat)
    (ns : Namespace) :
    (ofScope config parent id n ns).mangledId =
      mangle config (ofScope config parent id n ns).importPath
        (ofScope config parent id n ns).path (ofScope config parent id n ns).number := by
  cases parent with
  | none => simp only [ofScope, ofRoot]
  | some outer => simp only [ofScope, ofChild]

theorem mangledId_of_bare_eq {config : Config} (parent : Option Package) {id : PackageId} {n : Nat}
    {ns : Namespace} {p : Package} (h : p.bare = ofScope config parent id n ns) :
    p.mangledId = mangle config p.importPath p.path p.number := by
  have hbare : p.bare.mangledId = mangle config p.bare.importPath p.bare.path p.bare.number := by
    rw [h, mangledId_ofScope]
  exact hbare

end Package

namespace PackageTree

variable {config : Config} {root : Namespace} {p q : Package}

theorem mangledId_eq (h : p ∈ (build config root).value.packages) :
    p.mangledId = Package.mangle config p.importPath p.path p.number := by
  rcases mem_packages h with hbare | ⟨outer, -, hinside⟩
  · exact Package.mangledId_of_bare_eq none hbare
  · exact Package.mangledId_of_bare_eq (some outer) hinside.bare_eq

theorem eq_of_mangledId_eq (hp : p ∈ (build config root).value.packages)
    (hq : q ∈ (build config root).value.packages) (h : p.mangledId = q.mangledId) : p = q := by
  rw [mangledId_eq hp, mangledId_eq hq] at h
  exact eq_of_number_eq hp hq (Package.number_eq_of_mangle_eq h)

theorem nodup_map_mangledId (config : Config) (root : Namespace) :
    ((build config root).value.packages.map Package.mangledId).Nodup := by
  refine List.Nodup.map_on (fun p hp q hq h => ?_) (nodup_packages config root)
  exact eq_of_mangledId_eq hp hq h

end PackageTree

end InterfaceSchema
