import QueryAlgebra.Defaults.Yaml
import QueryAlgebra.Proofs.Defaults.Json
import QueryAlgebra.Proofs.Yaml.Flow

/-!
# Both readers of defaults agree

`Defaults.render` writes defaults as a compact JSON text. As long as its strings are ASCII this
is a YAML text as well, and `Defaults.ofYaml_render` says that it makes no difference which
of the two readers gets it: both find the defaults that were written, and both complain alike
about those that cannot be used.
-/

namespace QueryAlgebra

open Json (Everywhere compact decimal strings named)
open Yaml (IsAscii Flowable Node)
open View

/-- The sort key as a record of its own two keys. -/
def SortKey.tree (k : SortKey) : Json String String :=
  .record [("field", .text k.field), ("order", .text k.direction.name)]

namespace Defaults

/-- The defaults as a record. -/
def tree (d : Defaults) : Json String String :=
  .record
    [("page_size", .number (String.ofList (Nat.toDigits 10 d.pageSize))),
      ("attributes", .list (d.attributes.map .text)),
      ("sort", .list (d.sort.map SortKey.tree))]

/-- The defaults as a compact text. -/
def render (d : Defaults) : String := String.ofList (compact d.tree)

end Defaults

/-! ## JSON -/

theorem SortKey.writesList_tree (ks : List SortKey) :
    SortKey.WritesList ks (Json.asRead (.list (ks.map SortKey.tree))) := by
  set fields : SortKey → List (String × Json.Source) := fun k =>
    [("field", .text (some k.field)), ("order", .text (some k.direction.name))]
  refine ⟨ks.map fields, ?_, ?_⟩
  · rw [Json.asRead, Json.map_list, List.map_map, List.map_map]
    rfl
  · rw [List.forall₂_map_right_iff, List.forall₂_same]
    intro k _
    refine ⟨.once [] [_] rfl (by simp) (by simp) rfl, ?_⟩
    exact .once [_] [] rfl (by simp) (by simp) (Or.inl rfl)

namespace Defaults

theorem number_pageSize (d : Defaults) :
    Json.Number (String.ofList (Nat.toDigits 10 d.pageSize)).toList := by
  rw [String.toList_ofList]
  exact Json.number_toDigits d.pageSize

theorem writtenAs_tree (d : Defaults) : d.WrittenAs (Json.asRead d.tree) := by
  have hattributes : Json.asRead (.list (d.attributes.map .text)) = strings d.attributes := by
    rw [Json.asRead, Json.map_list, List.map_map]
    rfl
  have hread : Json.asRead d.tree = .record (named
      [("page_size", decimal d.pageSize), ("attributes", strings d.attributes),
        ("sort", Json.asRead (.list (d.sort.map SortKey.tree)))]) := by
    rw [← hattributes]
    exact Json.map_record _ _ _
  rw [hread]
  refine .record ⟨by simp [keys], ?_, ?_, ?_⟩
  · exact .once [] [_, _] rfl (by simp) (by simp) rfl
  · exact .once [_] [_] rfl (by simp) (by simp) rfl
  · exact .once [_, _] [] rfl (by simp) (by simp) (SortKey.writesList_tree d.sort)

theorem flowable_tree {d : Defaults} (hattributes : ∀ a ∈ d.attributes, IsAscii a)
    (hsort : ∀ k ∈ d.sort, IsAscii k.field) : Everywhere Flowable d.tree := by
  have hkeys : ∀ key ∈ "field" :: "order" :: keys,
      IsAscii key ∧ (Json.quoted key.toList).length ≤ 1024 := by decide
  have hname : ∀ direction : Direction, IsAscii direction.name := by
    intro direction
    cases direction <;> decide
  have hkey : ∀ k ∈ d.sort, Everywhere Flowable k.tree := by
    intro k hk
    refine (Json.everywhere_record_iff _ _).mpr ⟨?_, ?_⟩
    · simp only [Flowable, List.forall_mem_cons]
      exact ⟨hkeys _ (by simp), hkeys _ (by simp), List.forall_mem_nil _⟩
    · simp only [List.forall_mem_cons]
      exact ⟨hsort k hk, hname k.direction, List.forall_mem_nil _⟩
  refine (Json.everywhere_record_iff _ _).mpr ⟨?_, ?_⟩
  · simp only [Flowable, List.forall_mem_cons]
    exact ⟨hkeys _ (by simp [keys]), hkeys _ (by simp [keys]), hkeys _ (by simp [keys]),
      List.forall_mem_nil _⟩
  · simp only [List.forall_mem_cons, Json.everywhere_list_iff, List.forall_mem_map]
    exact ⟨d.number_pageSize, ⟨trivial, hattributes⟩, ⟨trivial, hkey⟩, List.forall_mem_nil _⟩

theorem ofJson_render {d : Defaults} (hsize : d.pageSize ≤ largestPageSize) :
    ofJson d.render = d.check := by
  have hnumber : Everywhere Json.HasNumber d.tree := by
    simp only [tree, SortKey.tree, Json.everywhere_record_iff, Json.everywhere_list_iff,
      List.forall_mem_cons, List.forall_mem_map]
    exact ⟨trivial, d.number_pageSize, ⟨trivial, fun _ _ => trivial⟩,
      ⟨trivial, fun _ _ => ⟨trivial, trivial, trivial, List.forall_mem_nil _⟩⟩,
      List.forall_mem_nil _⟩
  have hspells : Json.Spells (Json.asRead d.tree) d.render.toList := by
    rw [render, String.toList_ofList]
    exact Json.spells_compact hnumber
  rw [ofJson_of_spells hspells, read?_of_writtenAs hsize (writtenAs_tree d)]
  rfl

end Defaults

/-! ## YAML -/

namespace Yaml

theorem digitValue?_of_isDigit {c : Char} (hc : c.isDigit = true) :
    digitValue? 10 c = some (c.toNat - '0'.toNat) := by
  have hsmall : c.toNat - '0'.toNat < 10 := by
    have hrange := Char.isDigit_iff_toNat.mp hc
    simp at hrange ⊢
    omega
  rw [digitValue?, Text.hexValue?, if_pos hc, Option.filter_some, if_pos (decide_eq_true hsmall)]

theorem numeral?_of_digits {w : List Char} (hw : Json.Digits w) :
    numeral? 10 w = some (Nat.ofDigitChars 10 w 0) := by
  have hall : ∀ (w : List Char) (n : Nat), (∀ c ∈ w, c.isDigit = true) →
      w.foldlM (fun n c => (digitValue? 10 c).map (10 * n + ·)) n =
        some (Nat.ofDigitChars 10 w n) := by
    intro w
    induction w with
    | nil => exact fun _ _ => rfl
    | cons c w ih =>
        intro n hw
        obtain ⟨hc, hw⟩ := List.forall_mem_cons.mp hw
        rw [List.foldlM_cons, digitValue?_of_isDigit hc]
        exact ih _ hw
  rw [numeral?, if_neg (by simpa using hw.1)]
  exact hall w 0 hw.2

/-- Neither a sign nor the marker of a base stands in front. -/
theorem natural?_cons {d : Char} (ds : List Char) (hplus : d ≠ '+') (hzero : d ≠ '0') :
    natural? (String.ofList (d :: ds)) = numeral? 10 (d :: ds) := by
  rw [natural?, String.toList_ofList]
  split
  iterate 4
    · next heq =>
      split at heq
      · next hsign => exact absurd (List.cons.inj hsign).1 hplus
      · exact absurd (List.cons.inj heq).1 hzero
  · split
    · next hsign => exact absurd (List.cons.inj hsign).1 hplus
    · rfl

theorem natural?_toDigits (n : Nat) : natural? (String.ofList (Nat.toDigits 10 n)) = some n := by
  have hvalue : numeral? 10 (Nat.toDigits 10 n) = some n := by
    rw [numeral?_of_digits (Json.digits_toDigits n), Nat.ofDigitChars_ten_toDigits]
  have hwhole := Json.whole_toDigits n
  generalize Nat.toDigits 10 n = w at hvalue hwhole
  cases hwhole with
  | zero => exact hvalue
  | @digits d ds hd hd0 _ =>
      rw [natural?_cons ds (Json.ne_of_isDigit hd rfl) hd0]
      exact hvalue

end Yaml

namespace Defaults

/-- A sort key as a node. -/
def sortNode (k : SortKey) : Node :=
  .mapping none
    [(.scalar none none .quoted "field", .scalar none none .quoted k.field),
      (.scalar none none .quoted "order", .scalar none none .quoted k.direction.name)]

/-- The defaults as a node. -/
def node (d : Defaults) : Node :=
  .mapping none
    [(.scalar none none .quoted "page_size",
        .scalar none none .plain (String.ofList (Nat.toDigits 10 d.pageSize))),
      (.scalar none none .quoted "attributes",
        .sequence none (d.attributes.map (.scalar none none .quoted))),
      (.scalar none none .quoted "sort", .sequence none (d.sort.map sortNode))]

theorem flowNode_tree (d : Defaults) : d.tree.flowNode = d.node := by
  have hkey : ∀ k : SortKey, k.tree.flowNode = sortNode k := fun k => rfl
  have hattributes : Json.flowNode (.list (d.attributes.map .text)) =
      .sequence none (d.attributes.map (.scalar none none .quoted)) := by
    rw [Yaml.Lexer.flowNode_list, List.map_map]
    rfl
  have hsort : Json.flowNode (.list (d.sort.map SortKey.tree)) =
      .sequence none (d.sort.map sortNode) := by
    rw [Yaml.Lexer.flowNode_list, List.map_map]
    rfl
  rw [node, ← hattributes, ← hsort]
  rfl

section View

variable (known : List (Nat × Node))

theorem read?_sortNode (k : SortKey) :
    SortKey.read? (Node.view known) (sortNode k) = some k := by
  have hrecord : (Node.view known).record? ["field", "order"] (sortNode k) =
      some [("field", .scalar none none .quoted k.field),
        ("order", .scalar none none .quoted k.direction.name)] := rfl
  refine SortKey.read?_eq_some_iff.mpr ⟨_, hrecord, rfl, ?_⟩
  exact (Direction.ofName?_eq_some_iff _ _).mpr (Or.inl rfl)

theorem read?_node {d : Defaults} (hsize : d.pageSize ≤ largestPageSize) :
    Defaults.read? (Node.view known) d.node = some d := by
  have hrecord : (Node.view known).record? keys d.node =
      some [("page_size", .scalar none none .plain (String.ofList (Nat.toDigits 10 d.pageSize))),
        ("attributes", .sequence none (d.attributes.map (.scalar none none .quoted))),
        ("sort", .sequence none (d.sort.map sortNode))] := rfl
  have hpageSize : readPageSize? (Node.view known)
      (.scalar none none .plain (String.ofList (Nat.toDigits 10 d.pageSize))) =
        some d.pageSize :=
    readPageSize?_eq_some (Yaml.natural?_toDigits d.pageSize) hsize
  have hattributes : readList? (Node.view known) (Node.view known).text?
      (.sequence none (d.attributes.map (.scalar none none .quoted))) = some d.attributes :=
    readList?_map rfl fun _ => rfl
  have hsort : readList? (Node.view known) (SortKey.read? (Node.view known))
      (.sequence none (d.sort.map sortNode)) = some d.sort :=
    readList?_map rfl (read?_sortNode known)
  exact read?_eq_some_iff.mpr
    ⟨_, hrecord, by simp [keys], hpageSize, hattributes, hsort⟩

theorem listDetours_map_eq_zero {α : Type} (write : α → Node) {item : Node → Nat}
    (h : ∀ x, item (write x) = 0) (xs : List α) :
    Node.listDetours known item (.sequence none (xs.map write)) = 0 := by
  change (xs.map write).foldr (item · + ·) 0 = 0
  induction xs with
  | nil => rfl
  | cons x xs ih => rw [List.map_cons, List.foldr_cons, h, ih]

/-- Nothing in it is a reference. -/
theorem detours_node (d : Defaults) : detours known d.node = 0 := by
  have hattributes : Node.listDetours known Node.detour
      (.sequence none (d.attributes.map (.scalar none none .quoted))) = 0 :=
    listDetours_map_eq_zero known _ (fun _ => rfl) _
  have hsort : Node.listDetours known (SortKey.detours known)
      (.sequence none (d.sort.map sortNode)) = 0 :=
    listDetours_map_eq_zero known _ (fun _ => rfl) _
  change 0 + 0 + (0 + Node.listDetours known _ _ + (0 + Node.listDetours known _ _ + 0)) = 0
  rw [hattributes, hsort]

end View

theorem ofRoot?_node {d : Defaults} (hsize : d.pageSize ≤ largestPageSize) :
    ofRoot? d.node = some d := by
  have hfew : detours d.node.numbered d.node ≤ detoursPerEvent * d.node.events := by
    rw [detours_node]
    exact Nat.zero_le _
  rw [ofRoot?, if_pos hfew, read?_node _ hsize]

/-- The compact text of defaults means the same to both readers: the defaults, where these can
be used, and the same complaint about them otherwise. -/
theorem ofYaml_render {d : Defaults} (hsize : d.pageSize ≤ largestPageSize)
    (hattributes : ∀ a ∈ d.attributes, IsAscii a) (hsort : ∀ k ∈ d.sort, IsAscii k.field) :
    ofYaml d.render = ofJson d.render ∧
      (d.pageSize ≠ 0 → (∀ k ∈ d.sort, Text.isBlank k.field = false) →
        ofJson d.render = .ok d) ∧
      (d.pageSize = 0 → ofJson d.render = .error (.defaults .zeroPageSize)) ∧
      (d.pageSize ≠ 0 → (∃ k ∈ d.sort, Text.isBlank k.field = true) →
        ofJson d.render = .error (.defaults .blankSortField)) := by
  have hjson := ofJson_render hsize
  have hyaml : ofYaml d.render = d.check := by
    have hread : Yaml.read? d.render = some (some d.tree.flowNode) :=
      Yaml.read?_compact_record (flowable_tree hattributes hsort)
    rw [ofYaml, hread, flowNode_tree]
    exact congrArg ofRead (ofRoot?_node hsize)
  refine ⟨hyaml.trans hjson.symm, ?_, ?_, ?_⟩
  · intro hpositive hfields
    rw [hjson]
    exact (check_eq_ok_iff d d).mpr ⟨rfl, hpositive, hfields⟩
  · intro hzero
    rw [hjson, check, if_pos hzero]
  · intro hpositive hblank
    rw [hjson, check, if_neg hpositive, if_pos (List.any_eq_true.mpr hblank)]

/-- Marks of YAML and control characters within strings are nothing but characters, and blanks
alone name no field. -/
theorem ofYaml_render_marks :
    ofYaml (render ⟨7, ["a: #\t*", "- &x"], [⟨"\r\n\x7b", .descending⟩]⟩) =
        .ok ⟨7, ["a: #\t*", "- &x"], [⟨"\r\n\x7b", .descending⟩]⟩ ∧
      ofYaml (render ⟨7, [], [⟨" \t", .ascending⟩]⟩) = .error (.defaults .blankSortField) := by
  constructor
  · obtain ⟨hsame, hread, -⟩ := @ofYaml_render
      ⟨7, ["a: #\t*", "- &x"], [⟨"\r\n\x7b", .descending⟩]⟩ (by decide) (by decide) (by decide)
    exact hsame.trans (hread (by decide) (by decide))
  · obtain ⟨hsame, -, -, hblank⟩ := @ofYaml_render
      ⟨7, [], [⟨" \t", .ascending⟩]⟩ (by decide) (by decide) (by decide)
    exact hsame.trans (hblank (by decide) ⟨_, List.mem_cons_self, by decide⟩)

end Defaults

end QueryAlgebra
