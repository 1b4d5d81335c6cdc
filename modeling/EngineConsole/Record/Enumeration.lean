/-!
# Enumerations

The variants of an enumeration are numbered from zero in a fixed order, and the first is the default. A description of an enumeration lists its variants and proves that the list and the numbers agree.
-/

namespace EngineConsole

/-- The variants of `ε` with their names and numbers. -/
structure Enumeration (ε : Type) where
  name : String
  first : ε
  others : List ε
  label : ε → String
  number : ε → Nat
  numbered : (first :: others).map number = List.range (others.length + 1)
  complete : ∀ variant, variant ∈ first :: others

namespace Enumeration

variable {ε : Type}

def variants (enumeration : Enumeration ε) : List ε := enumeration.first :: enumeration.others

def ofNumber? (enumeration : Enumeration ε) (number : Nat) : Option ε :=
  enumeration.variants[number]?

def greatest (enumeration : Enumeration ε) : Nat := enumeration.others.length

end Enumeration

end EngineConsole
