import QueryAlgebra.Value

/-!
# Well-known attributes

Every entity of the index has some attributes under fixed field names. Each holds values
of one kind: texts, timestamps, or the name of a stage in the life of the entity.
-/

namespace QueryAlgebra

/-- The stages in the life of an entity. -/
inductive Lifecycle where
  | active
  | deleted
  deriving DecidableEq

namespace Lifecycle

/-- The name of the stage on the wire. -/
def name : Lifecycle → String
  | active => "ACTIVE"
  | deleted => "DELETED"

/-- The stage of exactly that name. -/
def ofName? (s : String) : Option Lifecycle :=
  if s = active.name then some active
  else if s = deleted.name then some deleted
  else none

theorem ofName?_eq_some_iff (s : String) (stage : Lifecycle) :
    ofName? s = some stage ↔ s = stage.name := by
  cases stage <;> simp only [ofName?, name] <;> grind

end Lifecycle

/-- A stage is compared as a text. -/
def Value.ofLifecycle (stage : Lifecycle) : Value := .text stage.name

/-- The attributes that every entity has. -/
inductive Attribute where
  | guid
  | typeName
  | state
  | createdBy
  | modifiedBy
  | createTime
  | updateTime
  | qualifiedName
  | name
  | superTypeNames
  | traitNames
  | propagatedTraitNames
  deriving DecidableEq

namespace Attribute

/-- The kinds of values that attributes hold. -/
inductive Kind where
  | text
  | timestamp
  | lifecycle
  deriving DecidableEq

/-- The name of the kind in error messages. -/
def Kind.name : Kind → String
  | text => "string"
  | timestamp => "timestamp"
  | lifecycle => "entity state"

/-- Every attribute once. -/
def list : List Attribute :=
  [guid, typeName, state, createdBy, modifiedBy, createTime, updateTime, qualifiedName,
    name, superTypeNames, traitNames, propagatedTraitNames]

/-- The field that holds the attribute. -/
def field : Attribute → String
  | guid => "__guid"
  | typeName => "__typeName.keyword"
  | state => "__state"
  | createdBy => "__createdBy"
  | modifiedBy => "__modifiedBy"
  | createTime => "__timestamp"
  | updateTime => "__modificationTimestamp"
  | qualifiedName => "qualifiedName"
  | name => "name.keyword"
  | superTypeNames => "__superTypeNames.keyword"
  | traitNames => "__traitNames"
  | propagatedTraitNames => "__propagatedTraitNames"

def kind : Attribute → Kind
  | createTime | updateTime => .timestamp
  | state => .lifecycle
  | _ => .text

/-- The attribute can hold the value. -/
def admits (a : Attribute) (v : Value) : Bool :=
  match a.kind, v with
  | .text, .text _ => true
  | .timestamp, .timestamp _ => true
  | .lifecycle, .text s => (Lifecycle.ofName? s).isSome
  | _, _ => false

end Attribute

end QueryAlgebra
