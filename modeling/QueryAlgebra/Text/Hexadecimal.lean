/-!
# Hexadecimal digits

Formats of text give a character by its number in hexadecimal digits. The digits are read in
either case and written in lower case; what is written is read back, `hexNumber?_octet`.
-/

namespace QueryAlgebra

namespace Text

/-- The character of a hexadecimal digit, in lower case. -/
def hexDigit (n : Nat) : Char :=
  Nat.digitChar (n % 16)

/-- The value of a hexadecimal digit in either case. -/
def hexValue? (c : Char) : Option Nat :=
  if c.isDigit then some (c.toNat - '0'.toNat)
  else if 'a' ≤ c ∧ c ≤ 'f' then some (c.toNat - 'a'.toNat + 10)
  else if 'A' ≤ c ∧ c ≤ 'F' then some (c.toNat - 'A'.toNat + 10)
  else none

/-- The number that hexadecimal digits spell. -/
def hexNumber? (digits : List Char) : Option Nat :=
  digits.foldlM (fun n c => (hexValue? c).map (n * 16 + ·)) 0

theorem hexValue?_lt {c : Char} {d : Nat} (h : hexValue? c = some d) : d < 16 := by
  -- the six letters of either case stand in a row
  have hletter : ∀ {low high : Char}, high.toNat = low.toNat + 5 → c ≤ high →
      c.toNat - low.toNat + 10 < 16 := by
    intro low high hlast hle
    have hc : c.toNat ≤ high.toNat := hle
    omega
  unfold hexValue? at h
  split at h
  · next hdigit =>
    have hrange := Char.isDigit_iff_toNat.mp hdigit
    obtain rfl := Option.some.inj h
    simp at hrange ⊢
    omega
  · split at h
    · next hlower =>
      obtain rfl := Option.some.inj h
      exact hletter rfl hlower.2
    · split at h
      · next hupper =>
        obtain rfl := Option.some.inj h
        exact hletter rfl hupper.2
      · exact nomatch h

theorem hexValue?_hexDigit (n : Nat) : hexValue? (hexDigit n) = some (n % 16) := by
  have hdigits : ∀ d < 16, hexValue? (Nat.digitChar d) = some d := by decide
  exact hdigits _ (Nat.mod_lt _ (by decide))

theorem hexNumber?_concat (digits : List Char) (c : Char) :
    hexNumber? (digits ++ [c]) =
      (hexNumber? digits).bind fun n => (hexValue? c).map (n * 16 + ·) := by
  simp [hexNumber?]

/-- Four digits and their values. -/
theorem exists_of_hexNumber? {digits : List Char} {n : Nat} (hlength : digits.length = 4)
    (h : hexNumber? digits = some n) :
    ∃ a b c d i j k l, digits = [a, b, c, d] ∧ hexValue? a = some i ∧ hexValue? b = some j ∧
      hexValue? c = some k ∧ hexValue? d = some l ∧ n = ((i * 16 + j) * 16 + k) * 16 + l := by
  match digits, hlength with
  | [a, b, c, d], _ =>
    simp only [hexNumber?, List.foldlM_cons, List.foldlM_nil, Option.bind_eq_bind,
      Option.bind_eq_some_iff, Option.map_eq_some_iff, Option.pure_def, Option.some.injEq] at h
    obtain ⟨_, ⟨i, ha, rfl⟩, _, ⟨j, hb, rfl⟩, _, ⟨k, hc, rfl⟩, _, ⟨l, hd, rfl⟩, rfl⟩ := h
    exact ⟨a, b, c, d, i, j, k, l, rfl, ha, hb, hc, hd, by omega⟩

/-- An octet is written in two digits, behind two zeros where there have to be four. -/
theorem hexNumber?_octet {n : Nat} (h : n < 0x100) :
    hexNumber? ['0', '0', hexDigit (n / 16), hexDigit n] = some n := by
  have hzero : hexValue? '0' = some 0 := rfl
  simp only [hexNumber?, List.foldlM_cons, List.foldlM_nil, hexValue?_hexDigit, hzero]
  simp
  omega

end Text

end QueryAlgebra
