import QueryAlgebra.Defaults.Json
import QueryAlgebra.Proofs.Defaults.Reading
import QueryAlgebra.Proofs.Json.Reading

/-!
# Defaults that are written as JSON

`Defaults.WrittenAs` says which trees write given defaults: records with the three keys in any
order, where a key may be left out if its value is the one that holds anyway, and lists of the
three values. `Defaults.ofJson_of_writtenAs` says that reading undoes this, whatever the spelling
of the tree, and that one key too many is always an error. Within a sort key other keys do not
matter, so nothing is said about them.
-/

namespace QueryAlgebra

open Json View

namespace Json

/-- A natural number in decimal digits. -/
def decimal (n : Nat) : Source := .number (String.ofList (Nat.toDigits 10 n))

/-- A list of texts. -/
def strings (ss : List String) : Source := .list (ss.map fun s => .text (some s))

/-- Fields with well-formed keys. -/
def named (fields : List (String × Source)) : List (Option String × Source) :=
  fields.map fun (key, value) => (some key, value)

theorem naturalOfLiteral?_toDigits (n : Nat) :
    naturalOfLiteral? (String.ofList (Nat.toDigits 10 n)) = some n := by
  have hdigits : ((!(Nat.toDigits 10 n).isEmpty) && (Nat.toDigits 10 n).all Char.isDigit) =
      true := by
    rw [Bool.and_eq_true, List.all_eq_true]
    exact ⟨by simp, (digits_toDigits n).2⟩
  have hvalue : (Nat.toDigits 10 n).foldl (fun n c => 10 * n + (c.toNat - '0'.toNat)) 0 = n := by
    rw [← Nat.ofDigitChars_eq_foldl]
    exact Nat.ofDigitChars_ten_toDigits
  rw [naturalOfLiteral?, String.toList_ofList, if_pos hdigits, hvalue]

theorem namedFields?_named (fields : List (String × Source)) :
    namedFields? (named fields) = some fields := by
  induction fields with
  | nil => rfl
  | cons field fields ih =>
      rw [namedFields?, named] at ih ⊢
      rw [List.map_cons, List.mapM_cons, ih]
      rfl

/-- A key that is no text spoils the fields around it. -/
theorem namedFields?_eq_none (before after : List (String × Source)) (value : Source) :
    namedFields? (named before ++ (none, value) :: named after) = none := by
  rw [namedFields?, List.mapM_append, List.mapM_cons]
  rw [← namedFields?, namedFields?_named]
  rfl

theorem record?_named (keys : List String) (fields : List (String × Source)) :
    view.record? keys (.record (named fields)) = some fields :=
  namedFields?_named fields

end Json

/-- The fields that write a sort key. The direction may have either of its names. -/
structure SortKey.Writes (k : SortKey) (fields : List (String × Source)) : Prop where
  field : Says fields "field" (· = .text (some k.field)) False
  order : Says fields "order"
    (fun v => v = .text (some k.direction.name) ∨ v = .text (some k.direction.longName))
    (k.direction = .standard)

/-- The tree is a list of sort keys. -/
def SortKey.WritesList (ks : List SortKey) (v : Source) : Prop :=
  ∃ items : List (List (String × Source)),
    v = .list (items.map fun fields => .record (named fields)) ∧
      List.Forall₂ SortKey.Writes ks items

namespace Defaults

/-- The fields that write defaults. -/
structure Writes (d : Defaults) (fields : List (String × Source)) : Prop where
  known : ∀ field ∈ fields, field.1 ∈ keys
  pageSize : Says fields "page_size" (· = decimal d.pageSize) (d.pageSize = standardPageSize)
  attributes : Says fields "attributes" (· = strings d.attributes) (d.attributes = [])
  sort : Says fields "sort" (SortKey.WritesList d.sort) (d.sort = [])

/-- The trees that write defaults. -/
inductive WrittenAs (d : Defaults) : Source → Prop
  | record {fields : List (String × Source)} :
      d.Writes fields → WrittenAs d (.record (named fields))
  | list {sort : Source} : SortKey.WritesList d.sort sort →
      WrittenAs d (.list [decimal d.pageSize, strings d.attributes, sort])

end Defaults

theorem SortKey.read?_of_writes {k : SortKey} {fields : List (String × Source)}
    (h : k.Writes fields) : SortKey.read? view (.record (named fields)) = some k := by
  refine SortKey.read?_eq_some_iff.mpr ⟨_, record?_named _ _, ?_, ?_⟩
  · refine field?_of_says h.field ?_ False.elim
    rintro _ rfl
    rfl
  · refine field?_of_says h.order ?_ fun hstandard => by rw [hstandard]
    rintro _ (rfl | rfl)
    · exact (Direction.ofName?_eq_some_iff _ _).mpr (Or.inl rfl)
    · exact (Direction.ofName?_eq_some_iff _ _).mpr (Or.inr rfl)

namespace Defaults

theorem readPageSize?_decimal {n : Nat} (h : n ≤ largestPageSize) :
    readPageSize? view (decimal n) = some n :=
  readPageSize?_eq_some (naturalOfLiteral?_toDigits n) h

theorem readList?_strings (ss : List String) :
    readList? view view.text? (strings ss) = some ss :=
  readList?_map rfl fun _ => rfl

theorem readList?_of_writesList {ks : List SortKey} {v : Source}
    (h : SortKey.WritesList ks v) : readList? view (SortKey.read? view) v = some ks := by
  obtain ⟨items, rfl, hitems⟩ := h
  refine readList?_eq_some rfl ?_
  rw [List.forall₂_map_right_iff]
  exact hitems.imp fun k fields => SortKey.read?_of_writes

theorem read?_of_writtenAs {d : Defaults} (hsize : d.pageSize ≤ largestPageSize) {v : Source}
    (h : d.WrittenAs v) : Defaults.read? view v = some d := by
  cases h with
  | @record fields hfields =>
      refine read?_eq_some_iff.mpr
        ⟨fields, record?_named _ _, hfields.known, ?_, ?_, ?_⟩
      · refine field?_of_says hfields.pageSize ?_ fun hstandard => by rw [hstandard]
        rintro _ rfl
        exact readPageSize?_decimal hsize
      · refine field?_of_says hfields.attributes ?_ fun hnone => by rw [hnone]
        rintro _ rfl
        exact readList?_strings d.attributes
      · exact field?_of_says hfields.sort (fun _ => readList?_of_writesList)
          fun hnone => by rw [hnone]
  | @list sort hsort =>
      have hrecord : view.record? keys (.list [decimal d.pageSize, strings d.attributes, sort]) =
          some [("page_size", decimal d.pageSize), ("attributes", strings d.attributes),
            ("sort", sort)] := rfl
      refine read?_eq_some_iff.mpr ⟨_, hrecord, by simp [keys], ?_, ?_, ?_⟩
      · exact readPageSize?_decimal hsize
      · exact readList?_strings d.attributes
      · exact readList?_of_writesList hsort

/-- One key too many: another one, or one that is there already. -/
theorem read?_eq_none_of_extra {before after : List (String × Source)} {key : Option String}
    (value : Source)
    (hkey : ∀ name ∈ key, name ∉ keys ∨ name ∈ (before ++ after).map Prod.fst) :
    Defaults.read? view (.record (named before ++ (key, value) :: named after)) = none := by
  cases key with
  | none =>
      have hrecord : view.record? keys
          (.record (named before ++ (none, value) :: named after)) = none :=
        namedFields?_eq_none before after value
      rw [Defaults.read?, hrecord]
      rfl
  | some name =>
      have hrecord : view.record? keys
          (.record (named before ++ (some name, value) :: named after)) =
          some (before ++ (name, value) :: after) := by
        have hall := record?_named keys (before ++ (name, value) :: after)
        rwa [named, List.map_append, List.map_cons] at hall
      rcases hkey name rfl with hunknown | htwice
      · exact read?_eq_none_of_unknown hrecord (by simp) hunknown
      · exact read?_eq_none_of_twice hrecord htwice

theorem ofJson_of_spells {v : Source} {text : String} (h : Spells v text.toList) :
    ofJson text = ofRead (Defaults.read? view v) := by
  rw [ofJson, (Json.read?_eq_some_iff text v).mpr h, Option.bind_some]

/-- Reading undoes writing. It fails when there is one key more in a record, whatever its value,
its place and the other fields are: a key that is not known, or one that occurs already. -/
theorem ofJson_of_writtenAs {d : Defaults} (hzero : d.pageSize ≠ 0)
    (hsize : d.pageSize ≤ largestPageSize)
    (hsort : ∀ k ∈ d.sort, Text.isBlank k.field = false) :
    (∀ (v : Source) (text : String), d.WrittenAs v → Spells v text.toList →
        ofJson text = .ok d) ∧
      ∀ (before after : List (String × Source)) (key : Option String) (value : Source)
        (text : String),
          (∀ name ∈ key, name ∉ keys ∨ name ∈ (before ++ after).map Prod.fst) →
          Spells (.record (named before ++ (key, value) :: named after)) text.toList →
          ofJson text = .error (.defaults .malformed) := by
  constructor
  · intro v text hv htext
    rw [ofJson_of_spells htext, read?_of_writtenAs hsize hv]
    exact (check_eq_ok_iff d d).mpr ⟨rfl, hzero, hsort⟩
  · intro before after key value text hkey htext
    rw [ofJson_of_spells htext, read?_eq_none_of_extra value hkey]
    rfl

/-- A record with an escape and a missing key, and a record with another key. -/
theorem ofJson_of_writtenAs_descending :
    ofJson "\x7b\"sort\":[\x7b\"order\":\"desc\",\"field\":\"\\u0061\"\x7d],\"page_size\":7\x7d"
      = .ok { pageSize := 7, sort := [⟨"a", .descending⟩] } ∧
      ofJson "\x7b\"page_size\":7,\"size\":null\x7d" = .error (.defaults .malformed) := by
  have hkey : Writes { pageSize := 7, sort := [⟨"a", .descending⟩] }
      [("sort", .list [.record (named [("order", .text "desc"), ("field", .text "a")])]),
        ("page_size", decimal 7)] := by
    refine ⟨by decide, ?_, .never (by decide) rfl, ?_⟩
    · exact .once [_] [] rfl (by decide) (by decide) rfl
    · refine .once [] [_] rfl (by decide) (by decide) ?_
      refine ⟨[_], rfl, .cons ⟨?_, ?_⟩ .nil⟩
      · exact .once [_] [] rfl (by decide) (by decide) rfl
      · exact .once [] [_] rfl (by decide) (by decide) (Or.inl rfl)
  obtain ⟨hwritten, hextra⟩ := @ofJson_of_writtenAs { pageSize := 7, sort := [⟨"a", .descending⟩] }
    (by decide) (by decide) (by decide)
  constructor
  · exact hwritten _ _ (.record hkey) ((Json.read?_eq_some_iff _ _).mp rfl)
  · refine hextra [("page_size", decimal 7)] [] (some "size") .null _ ?_
      ((Json.read?_eq_some_iff _ _).mp rfl)
    rintro _ ⟨⟩
    exact Or.inl (by decide)

end Defaults

end QueryAlgebra
