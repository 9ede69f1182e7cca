import Mathlib.Tactic.SplitIfs
import VisualNovel.Json.Reader
import VisualNovel.Json.Writer
/-!
# Strings that are written and read back

Every character that is written between quotes, escaped or not, is read as the same character
(`readString_writeChar`), whether it stands for itself or for the trailing half of a pair: a leading
half could not be told from the first unit of a character above U+FFFF. So a string is read back
(`readText_writeString`). Nothing that is written breaks the line by a carriage return
(`noReturn_writeString`).
-/
namespace VisualNovel.Json
open Text (halfChar halfCode? hexDigit hexDigits)

/-! ## Code units -/

theorem hexValue?_hexDigit {n : Nat} (h : n < 16) : hexValue? (hexDigit n) = some n := by
  have hall : ∀ n < 16, hexValue? (hexDigit n) = some n := by decide
  exact hall n h

theorem hexDigits_four (u : Nat) : hexDigits 4 u =
    [hexDigit (u / 16 / 16 / 16 % 16), hexDigit (u / 16 / 16 % 16), hexDigit (u / 16 % 16),
      hexDigit (u % 16)] := rfl

theorem readHex4_hexDigits {u : Nat} (h : u < 0x10000) (rest : List Char) :
    readHex4 (hexDigits 4 u ++ rest) = some (u, rest) := by
  have hvalue (n : Nat) : hexValue? (hexDigit (n % 16)) = some (n % 16) :=
    hexValue?_hexDigit (Nat.mod_lt _ (by decide))
  rw [hexDigits_four]
  simp only [List.cons_append, List.nil_append, readHex4, hvalue, Option.bind_eq_bind,
    Option.bind_some, Option.some.injEq, Prod.mk.injEq, and_true]
  omega

/-- The half that a character stands for tells which character it is. -/
theorem halfChar_of_halfCode? {c : Char} {u : Nat} (h : halfCode? c = some u) :
    halfChar u = c ∧ 0xd800 ≤ u ∧ u < 0xe000 := by
  rw [halfCode?, Option.ite_none_right_eq_some, Option.some.injEq] at h
  obtain ⟨hrange, rfl⟩ := h
  simp only [Text.firstStand, Text.halves, Text.firstUnit] at hrange ⊢
  refine ⟨?_, by omega, by omega⟩
  rw [halfChar, Text.firstStand, Text.firstUnit,
    show 0x10f000 + (0xd800 + (c.toNat - 0x10f000) - 0xd800) = c.toNat by omega, Char.ofNat_toNat]

/-! ## Characters -/

theorem toNat_range (c : Char) : (c.toNat < 0xd800 ∨ 0xdfff < c.toNat) ∧ c.toNat < 0x110000 := by
  have h := c.valid
  simp only [UInt32.isValidChar, Nat.isValidChar] at h
  simp only [Char.toNat]
  omega

/-- A character that is read back if it is written by its code: its code is its own, or that of a
trailing half it stands for. -/
def Stands (code : Char → Nat) (c : Char) : Prop :=
  code c = c.toNat ∨ halfCode? c = some (code c) ∧ 0xdc00 ≤ code c

variable {code : Char → Nat} {c : Char}

theorem readUnit_code (h : Stands code c) (rest : List Char) :
    readUnit (code c) rest = (c, rest) := by
  unfold readUnit
  rcases h with hown | ⟨hhalf, hlow⟩
  · obtain ⟨hwhole, -⟩ := toNat_range c
    rw [hown, if_neg, if_neg, Char.ofNat_toNat]
    · simp only [Bool.and_eq_true, decide_eq_true_eq]
      omega
    · simp only [Bool.and_eq_true, decide_eq_true_eq]
      omega
  · obtain ⟨hchar, -, hhigh⟩ := halfChar_of_halfCode? hhalf
    rw [if_neg, if_pos, hchar]
    · simpa using ⟨hlow, hhigh⟩
    · simp only [Bool.and_eq_true, decide_eq_true_eq]
      omega

/-- The two units of a character above U+FFFF are read as that character. -/
theorem readUnit_pair (h : 0x10000 ≤ c.toNat) (rest : List Char) :
    readUnit (0xd800 + (c.toNat - 0x10000) / 0x400)
      (unitEscape (0xdc00 + (c.toNat - 0x10000) % 0x400) ++ rest) = (c, rest) := by
  obtain ⟨-, hmost⟩ := toNat_range c
  have hunit : 0xdc00 + (c.toNat - 0x10000) % 0x400 < 0x10000 := by omega
  have hlow := readHex4_hexDigits hunit rest
  have hcode : 0x10000 + (0xd800 + (c.toNat - 0x10000) / 0x400 - 0xd800) * 0x400 +
      (0xdc00 + (c.toNat - 0x10000) % 0x400 - 0xdc00) = c.toNat := by omega
  unfold readUnit unitEscape
  rw [if_pos (by simp only [Bool.and_eq_true, decide_eq_true_eq]; omega)]
  simp only [List.cons_append, hlow]
  rw [if_pos (by simp only [Bool.and_eq_true, decide_eq_true_eq]; omega), hcode, Char.ofNat_toNat]

theorem readString_unitEscape {u : Nat} (hu : u < 0x10000) (fuel : Nat) (done rest : List Char) :
    readString (fuel + 1) done (unitEscape u ++ rest) =
      readString fuel ((readUnit u rest).1 :: done) (readUnit u rest).2 := by
  rw [unitEscape, List.cons_append, List.cons_append, readString, readHex4_hexDigits hu]
  rfl

/-- A character is written as an escape of its own, as itself, or by one or two code units. -/
inductive Spells (code : Char → Nat) (c : Char) : List Char → Prop
  | escape {e : Char} (h : escape? e = some c) : Spells code c ['\\', e]
  | plain (hquote : c ≠ '"') (hslash : c ≠ '\\') (h : 0x20 ≤ c.toNat) : Spells code c [c]
  | unit (h : code c < 0x10000) : Spells code c (unitEscape (code c))
  | pair (h : 0x10000 ≤ code c) :
      Spells code c (unitEscape (0xd800 + (c.toNat - 0x10000) / 0x400) ++
        unitEscape (0xdc00 + (c.toNat - 0x10000) % 0x400))

theorem spells_writeChar (code : Char → Nat) (c : Char) : Spells code c (writeChar code c) := by
  unfold writeChar
  split_ifs with hquote hslash hn hr ht hb hf hplain hunit
  · exact .escape (by rw [hquote]; rfl)
  · exact .escape (by rw [hslash]; rfl)
  · exact .escape (by rw [hn]; rfl)
  · exact .escape (by rw [hr]; rfl)
  · exact .escape (by rw [ht]; rfl)
  · exact .escape (by rw [hb]; rfl)
  · exact .escape (by rw [hf]; rfl)
  · rw [Bool.and_eq_true, decide_eq_true_eq] at hplain
    exact .plain hquote hslash hplain.1
  · exact .unit hunit
  · exact .pair (Nat.le_of_not_lt hunit)

/-- Whatever a character is written as is read as that character. -/
theorem readString_writeChar (h : Stands code c) (fuel : Nat) (done rest : List Char) :
    readString (fuel + 1) done (writeChar code c ++ rest) = readString fuel (c :: done) rest := by
  have hspells := spells_writeChar code c
  generalize writeChar code c = s at hspells ⊢
  cases hspells with
  | escape hescape =>
    rw [List.cons_append, List.singleton_append, readString, hescape]
    · rfl
    · rintro rfl
      cases hescape
  | plain hquote hslash hprints =>
    have hlow : ¬c.toNat < 0x20 := Nat.not_lt_of_le hprints
    rw [List.singleton_append, readString, if_neg hlow]
    · exact hquote
    · exact fun _ h => absurd h hslash
    · exact fun _ _ h => absurd h hslash
  | unit hunit => rw [readString_unitEscape hunit, readUnit_code h]
  | pair hpair =>
    have hown : code c = c.toNat := by
      apply h.resolve_right
      rintro ⟨hhalf, -⟩
      obtain ⟨-, -, hsmall⟩ := halfChar_of_halfCode? hhalf
      omega
    have hmost := (toNat_range c).2
    have hhigh : 0xd800 + (c.toNat - 0x10000) / 0x400 < 0x10000 := by omega
    rw [List.append_assoc, readString_unitEscape hhigh, readUnit_pair (by omega)]

/-- The characters of a string are read back up to the closing quote. -/
theorem readString_flatMap {cs : List Char} (h : ∀ c ∈ cs, Stands code c) {fuel : Nat}
    (hfuel : cs.length < fuel) (done rest : List Char) :
    readString fuel done (cs.flatMap (writeChar code) ++ '"' :: rest) =
      some (.ofList (done.reverse ++ cs), rest) := by
  induction cs generalizing fuel done with
  | nil =>
    obtain ⟨fuel, rfl⟩ : ∃ f, fuel = f + 1 := ⟨fuel - 1, by simp at hfuel; omega⟩
    simp [readString]
  | cons c cs ih =>
    rw [List.length_cons] at hfuel
    obtain ⟨fuel, rfl⟩ : ∃ f, fuel = f + 1 := ⟨fuel - 1, by omega⟩
    have hcs := ih (fun c hc => h c (List.mem_cons_of_mem _ hc)) (show cs.length < fuel by omega)
    rw [List.flatMap_cons, List.append_assoc, readString_writeChar (h c List.mem_cons_self), hcs]
    simp

theorem length_le_flatMap (code : Char → Nat) (cs : List Char) :
    cs.length ≤ (cs.flatMap (writeChar code)).length := by
  induction cs with
  | nil => exact Nat.le_refl _
  | cons c cs ih =>
    have hne : 1 ≤ (writeChar code c).length := by
      have hspells := spells_writeChar code c
      generalize writeChar code c = s at hspells ⊢
      cases hspells <;> simp [unitEscape]
    rw [List.flatMap_cons, List.length_append, List.length_cons]
    omega

/-- A string is read back. -/
theorem readText_writeString {s : String} (h : ∀ c ∈ s.toList, Stands code c) (rest : List Char) :
    readText (s.toList.flatMap (writeChar code) ++ '"' :: rest) = .ok (s, rest) := by
  have hlength := length_le_flatMap code s.toList
  rw [readText, readString_flatMap h (by rw [List.length_append]; omega), List.reverse_nil,
    List.nil_append, String.ofList_toList]
  rfl

/-! ## Carriage returns -/

theorem noReturn_unitEscape (u : Nat) : '\r' ∉ unitEscape u := by
  have hdigit (n : Nat) : '\r' ≠ hexDigit (n % 16) := by
    have hall : ∀ n < 16, '\r' ≠ hexDigit n := by decide
    exact hall _ (Nat.mod_lt _ (by decide))
  simp [unitEscape, hexDigits_four, hdigit]

theorem noReturn_writeChar (code : Char → Nat) (c : Char) : '\r' ∉ writeChar code c := by
  have hspells := spells_writeChar code c
  generalize writeChar code c = s at hspells ⊢
  cases hspells with
  | @escape e hescape =>
    have hreturn : '\r' ≠ e := by
      rintro rfl
      cases hescape
    simp [hreturn]
  | plain hquote hslash hprints =>
    have hreturn : '\r' ≠ c := by
      rintro rfl
      revert hprints
      decide
    simp [hreturn]
  | unit => exact noReturn_unitEscape _
  | pair => simp [noReturn_unitEscape]

theorem noReturn_writeString (code : Char → Nat) (s : String) : '\r' ∉ writeString code s := by
  simp [writeString, noReturn_writeChar]

end VisualNovel.Json
