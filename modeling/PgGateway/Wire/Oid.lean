/-!
# Type numbers

Clients know the types of result columns by their numbers in the catalogue of types.
-/

namespace PgGateway

/-- The number of a type in the catalogue of types. -/
structure Oid where
  number : Int32
deriving DecidableEq, Repr

namespace Oid

/-- Byte strings. -/
def bytea : Oid := ⟨17⟩

/-- Integers of eight bytes. -/
def int8 : Oid := ⟨20⟩

/-- Integers of four bytes. -/
def int4 : Oid := ⟨23⟩

/-- Texts. -/
def text : Oid := ⟨25⟩

/-- Single-precision numbers. -/
def float4 : Oid := ⟨700⟩

/-- Double-precision numbers. -/
def float8 : Oid := ⟨701⟩

end Oid

end PgGateway
