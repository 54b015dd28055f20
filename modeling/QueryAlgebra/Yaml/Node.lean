import QueryAlgebra.Yaml.Token

/-!
# YAML trees

A `Node` is a scalar, a sequence, a mapping, or a reference to another node. An anchor gives
a node a number, and a reference means the last node, in the order of the text, that has
its number. A scalar keeps its style and its tag, because both bear on how it is
understood; the tags of collections do not.
-/

namespace QueryAlgebra

namespace Yaml

/-- A node of a YAML document. -/
inductive Node where
  | scalar (anchor : Option Nat) (tag : Option (Option String)) (style : Style) (text : String)
  | sequence (anchor : Option Nat) (items : List Node)
  | mapping (anchor : Option Nat) (pairs : List (Node × Node))
  | reference (number : Nat)

namespace Node

/-- A node under its number, if it has one. -/
def underNumber (anchor : Option Nat) (node : Node) : List (Nat × Node) :=
  anchor.toList.map fun number => (number, node)

mutual

/-- The nodes of a tree under their numbers, the last in the order of the text first. -/
def numbered : Node → List (Nat × Node)
  | scalar anchor tag style text => underNumber anchor (scalar anchor tag style text)
  | sequence anchor items =>
    numberedItems items ++ underNumber anchor (sequence anchor items)
  | mapping anchor pairs => numberedPairs pairs ++ underNumber anchor (mapping anchor pairs)
  | reference _ => []

/-- `numbered`, for the items of a sequence. -/
def numberedItems : List Node → List (Nat × Node)
  | [] => []
  | item :: items => numberedItems items ++ numbered item

/-- `numbered`, for the keys and values of a mapping. -/
def numberedPairs : List (Node × Node) → List (Nat × Node)
  | [] => []
  | (key, value) :: pairs => numberedPairs pairs ++ (numbered value ++ numbered key)

end

mutual

/-- The number of events in which a tree is written: one for a scalar or a reference, and
for a collection one at either end. -/
def events : Node → Nat
  | scalar .. => 1
  | sequence _ items => eventsOfItems items + 2
  | mapping _ pairs => eventsOfPairs pairs + 2
  | reference _ => 1

/-- `events`, for the items of a sequence. -/
def eventsOfItems : List Node → Nat
  | [] => 0
  | item :: items => events item + eventsOfItems items

/-- `events`, for the keys and values of a mapping. -/
def eventsOfPairs : List (Node × Node) → Nat
  | [] => 0
  | (key, value) :: pairs => events key + (events value + eventsOfPairs pairs)

end

/-- The node that is meant: a reference stands for the first node under its number. -/
def resolve? (known : List (Nat × Node)) : Node → Option Node
  | reference number => known.lookup number
  | node => some node

/-- The number of references to follow to the node that is meant. -/
def detour : Node → Nat
  | reference _ => 1
  | _ => 0

end Node

end Yaml

end QueryAlgebra
