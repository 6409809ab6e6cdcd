import InterfaceSchema.Diagnostic

namespace InterfaceSchema.Command

structure Directory where
  files : List (List String × ByteArray)

inductive Folder where
  | inside (names : List String)
  | outside
  deriving DecidableEq, Repr

inductive Location where
  | file (content : ByteArray)
  | folder (folder : Folder)

def nameLimit : Nat :=
  255

def pathLimit : Nat :=
  4095

def pathParts (path : String) : List String :=
  path.splitOn "/"

def staysAt (part : String) : Bool :=
  part == "" || part == "."

namespace Folder

def ofPath (path : String) : Folder :=
  if path.toList.head? = some '/' then outside else inside []

def parent : Folder → Folder
  | inside [] => outside
  | inside (name :: names) => inside (name :: names).dropLast
  | outside => outside

end Folder

namespace Directory

def ofFiles (files : List (String × ByteArray)) : Directory :=
  ⟨files.map fun file => ((pathParts file.1).filter (!staysAt ·), file.2)⟩

def find (d : Directory) (names : List String) : Except FileFault Location :=
  match d.files.lookup names with
  | some content => .ok (.file content)
  | none =>
      if d.files.any fun file => names.isPrefixOf file.1 then .ok (.folder (.inside names))
      else .error .notFound

def enter (d : Directory) (folder : Folder) (part : String) : Except FileFault Location :=
  if staysAt part then .ok (.folder folder)
  else if part = ".." then .ok (.folder folder.parent)
  else if nameLimit < part.utf8ByteSize then .error .nameTooLong
  else
    match folder with
    | .inside names => d.find (names ++ [part])
    | .outside => .error .notFound

-- Whatever has a part behind it has to be a directory, even where that part stays.
def walk (d : Directory) (location : Location) : List String → Except FileFault Location
  | [] => .ok location
  | part :: rest =>
      match location with
      | .file _ => .error .notDirectory
      | .folder folder =>
          match d.enter folder part with
          | .error fault => .error fault
          | .ok next => d.walk next rest

def read (d : Directory) (path : String) : Except FileFault ByteArray :=
  if path.isEmpty then .error .notFound
  else if pathLimit < path.utf8ByteSize then .error .nameTooLong
  else
    match d.walk (.folder (.ofPath path)) (pathParts path) with
    | .error fault => .error fault
    | .ok (.file content) => .ok content
    | .ok (.folder _) => .error .isDirectory

end Directory

end InterfaceSchema.Command
