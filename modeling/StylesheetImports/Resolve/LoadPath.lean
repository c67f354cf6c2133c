import StylesheetImports.Resolve.Relative

set_option autoImplicit false

namespace StylesheetImports

namespace Resolver

def below (dir : Path) : Resolver := fun specifier fromImport =>
  match Url.ofPath? (dir.join specifier) with
  | some location => resolve location fromImport true
  | none => pure .absent

-- Resolves a file by its location, and anything else below the first directory that has it.
def loadPaths (dirs : List Path) : Resolver := fun specifier fromImport =>
  match Url.ofSpecifier? specifier with
  | some location => resolve location fromImport true
  | none => first (dirs.map (fun dir => below dir specifier fromImport))

end Resolver

end StylesheetImports
