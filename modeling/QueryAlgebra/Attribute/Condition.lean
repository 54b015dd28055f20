import QueryAlgebra.Condition.Basic

/-!
# Conditions on attributes

A condition on a well-known attribute is built like any other, after a check that the
attribute can hold the value it is compared with.
-/

namespace QueryAlgebra

/-- Stops at a value that the attribute cannot hold. -/
def Attribute.check (a : Attribute) (v : Value) : Except Fault Unit :=
  if a.admits v then .ok () else .error (.unfit a)

/-- The attribute equals a value that it can hold. -/
def Term.onAttribute (a : Attribute) (v : Value) : Except Fault Term :=
  (a.check v).bind fun _ => Term.create a.field v

/-- The attribute starts with a text that it can hold. -/
def StartsWith.onAttribute (a : Attribute) (s : String) : Except Fault StartsWith :=
  (a.check (.text s)).bind fun _ => StartsWith.create a.field s

/-- The attribute holds any value. -/
def Presence.onAttribute (a : Attribute) : Except Fault Presence :=
  Presence.create a.field

end QueryAlgebra
