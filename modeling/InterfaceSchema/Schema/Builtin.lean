namespace InterfaceSchema

inductive Builtin where
  | unit
  | string
  | bool
  | int
  | long
  | float
  | double
  | time
  | data
  | list
  | map
  deriving DecidableEq, Repr

namespace Builtin

def all : List Builtin :=
  [unit, string, bool, int, long, float, double, time, data, list, map]

def word : Builtin → String
  | unit => "unit"
  | string => "string"
  | bool => "bool"
  | int => "int"
  | long => "long"
  | float => "float"
  | double => "double"
  | time => "time"
  | data => "data"
  | list => "list"
  | map => "map"

def ofWord? (w : String) : Option Builtin :=
  all.find? (·.word == w)

theorem mem_all (b : Builtin) : b ∈ all := by
  cases b <;> decide

theorem ofWord?_word (b : Builtin) : ofWord? b.word = some b := by
  cases b <;> decide

end Builtin

end InterfaceSchema
