import InterfaceSchema.Compilation
import InterfaceSchema.Package.Tree

namespace InterfaceSchema

namespace PackageTree

open Json (ofText ofTexts ofFields)

def outlineType (t : PackageTree) (p : Package) (type : TypeRef) : Json :=
  ofText (t.resolve p type).text

def outlineRecord (t : PackageTree) (p : Package) (type : RecordType) : Json :=
  ofFields
    [("name", ofText type.name),
     ("properties", .array (type.properties.values.map fun property =>
        ofFields [("name", ofText property.name), ("type", t.outlineType p property.type)]))]

def outlineEnum (enum : EnumType) : Json :=
  ofFields [("name", ofText enum.name), ("members", ofTexts enum.members)]

def outlineRpc (t : PackageTree) (p : Package) (rpc : Rpc) : Json :=
  ofFields
    [("name", ofText rpc.name), ("input", .array (rpc.input.map (t.outlineType p))),
     ("output", .array (rpc.output.map (t.outlineType p)))]

def outlinePackage (t : PackageTree) (p : Package) : Json :=
  ofFields
    [("name", ofText p.name), ("namespace", ofText p.scope.name), ("path", ofText p.path),
     ("import_path", ofText p.importPath), ("mangled_id", ofText p.mangledId),
     ("children", ofTexts (t.mangledIds p.children)),
     ("dependencies", ofTexts (t.mangledIds p.dependencies)),
     ("options", p.scope.options.encode ofText),
     ("types", .array (p.scope.types.values.map (t.outlineRecord p))),
     ("enums", .array (p.scope.enums.values.map outlineEnum)),
     ("rpcs", .array (p.scope.rpcs.values.map (t.outlineRpc p)))]

def outline (t : PackageTree) : Json :=
  .array (t.packages.map t.outlinePackage)

def outlineText (t : PackageTree) : String :=
  t.outline.pretty

end PackageTree

def outlineOf (config : Config) :
    Logged (Except Diagnostic Namespace) → Logged (Except Diagnostic String)
  | ⟨.error d, events⟩ => ⟨.error d, events⟩
  | ⟨.ok root, events⟩ =>
      ((PackageTree.build config root).map fun tree => .ok tree.outlineText).after events

def outlineToText (config : Config) (sources : List (String × String)) :
    Logged (Except Diagnostic String) :=
  outlineOf config (compileSources sources)

end InterfaceSchema
