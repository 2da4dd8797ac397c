import Mathlib.Data.List.Basic
import SourceArchive.Proofs.Text
import SourceArchive.Text.Utf8

/-!
# Byte offsets

A place in a text can be given by the number of bytes before it.  Not every such number is a place: it can exceed the text,
or stand within the bytes of one character.  Cutting a text at byte offsets is therefore partial, and `slice?_eq_some_iff`
says when it gives a text.  A byte below 128 is a character of its own, wherever it stands (`exists_of_byte`); the bytes of
all other characters are 128 or more.
-/

namespace SourceArchive

namespace Text

/-! ## The bytes of a text -/

/-- The bytes of a text, one after the other. -/
def byteList (t : Text) : List UInt8 := t.toBytes.data.toList

/-- The number of bytes of a text. -/
def byteLength (t : Text) : Nat := t.byteList.length

theorem byteList_eq (t : Text) : t.byteList = t.flatMap String.utf8EncodeChar := by
  rw [byteList, toBytes, String.toUTF8_eq_toByteArray, String.toByteArray_ofList, List.utf8Encode, List.data_toByteArray]

theorem byteList_append (a r : Text) : byteList (a ++ r) = a.byteList ++ r.byteList := by
  simp only [byteList_eq, List.flatMap_append]

theorem byteList_cons (c : Char) (r : Text) : byteList (c :: r) = String.utf8EncodeChar c ++ byteList r := by
  simp only [byteList_eq, List.flatMap_cons]

@[simp] theorem byteLength_nil : byteLength [] = 0 := rfl

@[simp] theorem byteLength_append (a r : Text) : byteLength (a ++ r) = a.byteLength + r.byteLength := by
  rw [byteLength, byteList_append, List.length_append, byteLength, byteLength]

@[simp] theorem byteLength_cons (c : Char) (r : Text) : byteLength (c :: r) = c.utf8Size + byteLength r := by
  rw [byteLength, byteList_cons, List.length_append, String.length_utf8EncodeChar, byteLength]

theorem drop_byteLength (a r : Text) : (byteList (a ++ r)).drop a.byteLength = r.byteList := by
  rw [byteList_append, byteLength, List.drop_left]

/-! ## Characters of one byte and of several -/

section Char

variable {c : Char}

theorem utf8Size_of_ascii (h : c.toNat < 128) : c.utf8Size = 1 := by
  rw [Char.utf8Size_eq_one_iff, UInt32.le_iff_toNat_le]
  exact Nat.le_of_lt_succ h

theorem utf8EncodeChar_of_ascii (h : c.toNat < 128) : String.utf8EncodeChar c = [c.toUInt8] := by
  rw [String.utf8EncodeChar_eq_singleton (utf8Size_of_ascii h)]
  rfl

theorem toNat_ofUInt8 (b : UInt8) : (Char.ofUInt8 b).toNat = b.toNat := rfl

theorem ofUInt8_inj {a b : UInt8} : Char.ofUInt8 a = Char.ofUInt8 b ↔ a = b := by
  refine ⟨fun h => UInt8.toNat_inj.mp ?_, fun h => h ▸ rfl⟩
  rw [← toNat_ofUInt8, h, toNat_ofUInt8]

theorem ofUInt8_toUInt8 (h : c.toNat < 128) : Char.ofUInt8 c.toUInt8 = c := by
  have hbyte : (Char.ofUInt8 c.toUInt8).toNat = c.toNat % 2 ^ 8 := UInt32.toNat_toUInt8 c.val
  apply Char.ext
  apply UInt32.toNat_inj.mp
  exact hbyte.trans (Nat.mod_eq_of_lt (by omega))

theorem ofUInt8_eq_iff (h : c.toNat < 128) {b : UInt8} : Char.ofUInt8 b = c ↔ b = c.toUInt8 := by
  rw [← ofUInt8_inj, ofUInt8_toUInt8 h]

theorem le_of_mem_utf8EncodeChar (h : 128 ≤ c.toNat) {b : UInt8} (hb : b ∈ String.utf8EncodeChar c) : 128 ≤ b.toNat := by
  have hval : c.val.toNat = c.toNat := rfl
  unfold String.utf8EncodeChar at hb
  simp only [hval] at hb
  split_ifs at hb <;> simp only [List.mem_cons, List.not_mem_nil, or_false] at hb
  · omega
  · rcases hb with rfl | rfl <;> simp <;> omega
  · rcases hb with rfl | rfl | rfl <;> simp <;> omega
  · rcases hb with rfl | rfl | rfl | rfl <;> simp <;> omega

end Char

/-! ## A text byte by byte -/

/-- The text that has a character of the same code for each byte. -/
def bytewise (t : Text) : Text := t.byteList.map Char.ofUInt8

theorem bytewise_cons (c : Char) (r : Text) :
    bytewise (c :: r) = (String.utf8EncodeChar c).map Char.ofUInt8 ++ bytewise r := by
  rw [bytewise, byteList_cons, List.map_append, bytewise]

theorem bytewise_cons_of_ascii {c : Char} (h : c.toNat < 128) (r : Text) : bytewise (c :: r) = c :: bytewise r := by
  rw [bytewise_cons, utf8EncodeChar_of_ascii h, List.map_singleton, ofUInt8_toUInt8 h]
  rfl

/-- A character of several bytes gives characters that are no more ASCII than itself. -/
theorem exists_bytewise_cons {c : Char} (h : 128 ≤ c.toNat) (r : Text) :
    ∃ d x, bytewise (c :: r) = d :: x ++ bytewise r ∧ (d :: x).length = c.utf8Size ∧ ∀ e ∈ d :: x, 128 ≤ e.toNat := by
  have hlength : ((String.utf8EncodeChar c).map Char.ofUInt8).length = c.utf8Size := by
    rw [List.length_map, String.length_utf8EncodeChar]
  have hmem : ∀ e ∈ (String.utf8EncodeChar c).map Char.ofUInt8, 128 ≤ e.toNat := by
    intro e he
    obtain ⟨b, hb, rfl⟩ := List.mem_map.mp he
    exact le_of_mem_utf8EncodeChar h hb
  have hne : (String.utf8EncodeChar c).map Char.ofUInt8 ≠ [] := by
    rw [← List.length_pos_iff, hlength]
    exact c.utf8Size_pos
  obtain ⟨d, x, hx⟩ := List.exists_cons_of_ne_nil hne
  rw [hx] at hlength hmem
  exact ⟨d, x, by rw [bytewise_cons, hx], hlength, hmem⟩

/-- A byte below 128 stands for the character of that code. -/
theorem exists_of_byte {t : Text} {i : Nat} {b : UInt8} (h : t.byteList[i]? = some b) (hb : b.toNat < 128) :
    ∃ a r, t = a ++ Char.ofUInt8 b :: r ∧ byteLength a = i := by
  induction t generalizing i with
  | nil => cases h
  | cons c t ih =>
    rw [byteList_cons] at h
    by_cases hi : i < (String.utf8EncodeChar c).length
    · rw [List.getElem?_append_left hi] at h
      have hascii : c.toNat < 128 := by
        by_contra hc
        have := le_of_mem_utf8EncodeChar (by omega) (List.mem_of_getElem? h)
        omega
      rw [utf8EncodeChar_of_ascii hascii] at h hi
      obtain rfl : i = 0 := by simpa using hi
      obtain rfl : c.toUInt8 = b := by simpa using h
      exact ⟨[], t, by rw [ofUInt8_toUInt8 hascii]; rfl, rfl⟩
    · rw [List.getElem?_append_right (by omega)] at h
      obtain ⟨a, r, rfl, ha⟩ := ih h
      refine ⟨c :: a, r, rfl, ?_⟩
      rw [byteLength_cons, ha, ← String.length_utf8EncodeChar]
      omega

/-! ## Cutting at byte offsets -/

/-- What stands before and behind the first `n` bytes, if this is a place between characters. -/
def divide? : Text → Nat → Option (Text × Text)
  | t, 0 => some ([], t)
  | [], _ + 1 => none
  | c :: r, n + 1 =>
    if c.utf8Size ≤ n + 1 then (divide? r (n + 1 - c.utf8Size)).map fun (a, b) => (c :: a, b) else none

/-- The text between two byte offsets, if these are places between characters, the first not behind the second. -/
def slice? (t : Text) (i j : Nat) : Option Text := do
  let (front, _) ← t.divide? j
  let (_, between) ← front.divide? i
  return between

theorem byteLength_eq_zero {a : Text} : byteLength a = 0 ↔ a = [] := by
  cases a with
  | nil => simp
  | cons c a =>
    have := c.utf8Size_pos
    simp
    omega

theorem divide?_eq_some_iff {t a b : Text} {n : Nat} : t.divide? n = some (a, b) ↔ t = a ++ b ∧ byteLength a = n := by
  fun_induction divide? t n generalizing a with
  | case1 t =>
    rw [byteLength_eq_zero]
    constructor
    · rintro ⟨⟩
      exact ⟨rfl, rfl⟩
    · rintro ⟨h, rfl⟩
      rw [h]
      rfl
  | case2 n =>
    refine iff_of_false (fun h => by cases h) ?_
    rintro ⟨hnil, hlength⟩
    rw [(List.append_eq_nil_iff.mp hnil.symm).1] at hlength
    cases hlength
  | case3 c r n hsize ih =>
    constructor
    · intro h
      obtain ⟨⟨x, y⟩, hxy, heq⟩ := Option.map_eq_some_iff.mp h
      obtain ⟨rfl, rfl⟩ := Prod.mk.inj heq
      obtain ⟨rfl, hlength⟩ := ih.mp hxy
      refine ⟨rfl, ?_⟩
      rw [byteLength_cons, hlength]
      omega
    · rintro ⟨h, hlength⟩
      cases a with
      | nil => cases hlength
      | cons d a =>
        obtain ⟨rfl, rfl⟩ := List.cons.inj h
        rw [byteLength_cons] at hlength
        rw [ih.mpr ⟨rfl, by omega⟩]
        rfl
  | case4 c r n hsize =>
    refine iff_of_false (fun h => by cases h) ?_
    rintro ⟨h, hlength⟩
    cases a with
    | nil => cases hlength
    | cons d a =>
      obtain ⟨rfl, rfl⟩ := List.cons.inj h
      rw [byteLength_cons] at hlength
      omega

theorem slice?_eq_some_iff {t s : Text} {i j : Nat} :
    t.slice? i j = some s ↔ ∃ a b, t = a ++ s ++ b ∧ byteLength a = i ∧ byteLength (a ++ s) = j := by
  constructor
  · intro h
    obtain ⟨⟨front, b⟩, hfront, h⟩ := Option.bind_eq_some_iff.mp h
    obtain ⟨⟨a, between⟩, hbetween, h⟩ := Option.bind_eq_some_iff.mp h
    obtain rfl : between = s := Option.some.inj h
    obtain ⟨rfl, hj⟩ := divide?_eq_some_iff.mp hfront
    obtain ⟨rfl, hi⟩ := divide?_eq_some_iff.mp hbetween
    exact ⟨a, b, rfl, hi, hj⟩
  · rintro ⟨a, b, rfl, hi, hj⟩
    rw [slice?, divide?_eq_some_iff.mpr ⟨rfl, hj⟩]
    change (divide? (a ++ s) i).bind _ = _
    rw [divide?_eq_some_iff.mpr ⟨rfl, hi⟩]
    rfl

end Text

end SourceArchive
