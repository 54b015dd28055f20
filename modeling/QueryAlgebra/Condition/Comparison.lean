import QueryAlgebra.Condition.Tuning
import QueryAlgebra.Text.Blank

/-!
# Comparison with a single value

A `Term` asks for a field that equals a value, a `StartsWith` for one that starts with a
text. `create` checks what it is given; the settings that follow touch neither the field
nor the value.
-/

namespace QueryAlgebra

/-- The field equals a value. -/
structure Term where
  field : String
  value : Value
  tuning : Tuning := {}
  deriving DecidableEq

namespace Term

def create (field : String) (value : Value) : Except Fault Term :=
  if Text.isBlank field then .error (.blankField .term)
  else (checkValue .term field value).map fun value => { field, value }

def set (t : Term) (s : Tuning.Setting) : Except Fault Term :=
  (t.tuning.set s).map fun tuning => { t with tuning }

def same (s t : Term) : Bool :=
  s.field == t.field && s.value.same t.value && s.tuning.same t.tuning

def document (t : Term) : Document :=
  .single "term" (.single t.field (.record (("value", t.value.document) :: t.tuning.fields)))

end Term

/-- The field starts with a text. -/
structure StartsWith where
  field : String
  value : String
  tuning : Tuning := {}
  deriving DecidableEq

namespace StartsWith

def create (field value : String) : Except Fault StartsWith :=
  if Text.isBlank field then .error (.blankField .startsWith) else .ok { field, value }

def set (t : StartsWith) (s : Tuning.Setting) : Except Fault StartsWith :=
  (t.tuning.set s).map fun tuning => { t with tuning }

def same (s t : StartsWith) : Bool :=
  s.field == t.field && s.value == t.value && s.tuning.same t.tuning

def document (t : StartsWith) : Document :=
  .single "prefix" (.single t.field (.record (("value", .text t.value) :: t.tuning.fields)))

end StartsWith

end QueryAlgebra
