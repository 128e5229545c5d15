import Sm83Codegen.Catalog.Control

/-!
# The catalog

All authored families, in the order in which their code is written.
-/

namespace Sm83Codegen

/-- The families of the SM83. -/
def catalog : List Family :=
  Catalog.loadFamilies ++ Catalog.arithmeticFamilies ++ Catalog.bitFamilies ++
    Catalog.controlFamilies

end Sm83Codegen
