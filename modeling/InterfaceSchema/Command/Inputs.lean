import InterfaceSchema.Diagnostic

namespace InterfaceSchema.Command

structure Inputs where
  read : String → Except FileFault ByteArray
  stdin : ByteArray

def decodeText (content : ByteArray) : Except FileFault String :=
  match String.fromUTF8? content with
  | some text => .ok text
  | none => .error .notText

def Inputs.readText (inputs : Inputs) (path : String) : Except FileFault String :=
  match inputs.read path with
  | .ok content => decodeText content
  | .error fault => .error fault

-- A dash is the standard input, which is empty when it is read again.
def Inputs.readAll (inputs : Inputs) : List String → Except FileFault (List (String × String))
  | [] => .ok []
  | path :: rest =>
      if path = "-" then
        match decodeText inputs.stdin with
        | .error fault => .error fault
        | .ok text => ({ inputs with stdin := .empty }.readAll rest).map (("<stdin>", text) :: ·)
      else
        match inputs.readText path with
        | .error fault => .error fault
        | .ok text => (inputs.readAll rest).map ((path, text) :: ·)

def Inputs.sources (inputs : Inputs) (files : List String) :
    Except Diagnostic (List (String × String)) :=
  (inputs.readAll (if files.isEmpty then ["-"] else files)).mapError .file

end InterfaceSchema.Command
