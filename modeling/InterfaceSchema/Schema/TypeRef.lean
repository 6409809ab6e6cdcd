namespace InterfaceSchema

structure TypeRef where
  name : String
  arguments : List TypeRef

namespace TypeRef

mutual

def decEq : (a b : TypeRef) → Decidable (a = b)
  | ⟨name, arguments⟩, ⟨name', arguments'⟩ =>
      match decEqAll arguments arguments' with
      | .isTrue h => decidable_of_iff (name = name') (by simp [h])
      | .isFalse h => .isFalse fun heq => h (congrArg TypeRef.arguments heq)

def decEqAll : (as bs : List TypeRef) → Decidable (as = bs)
  | [], [] => .isTrue rfl
  | [], _ :: _ => .isFalse (List.cons_ne_nil _ _).symm
  | _ :: _, [] => .isFalse (List.cons_ne_nil _ _)
  | a :: as, b :: bs =>
      match decEq a b, decEqAll as bs with
      | .isTrue h, .isTrue h' => .isTrue (h ▸ h' ▸ rfl)
      | .isFalse h, _ => .isFalse fun heq => h (List.cons.inj heq).1
      | _, .isFalse h => .isFalse fun heq => h (List.cons.inj heq).2

end

instance : DecidableEq TypeRef :=
  decEq

mutual

def text : TypeRef → String
  | ⟨name, []⟩ => name
  | ⟨name, first :: rest⟩ => name ++ "<" ++ text first ++ textOfRest rest ++ ">"

def textOfRest : List TypeRef → String
  | [] => ""
  | argument :: rest => "," ++ text argument ++ textOfRest rest

end

end TypeRef

end InterfaceSchema
