import SourceArchive.Proofs.BracketCounts
import SourceArchive.Proofs.ByteOffsets

/-!
# Scans over bytes

The scans for a closing bracket can go over the bytes of a text, by index.  A backslash in a string then steps over two
bytes, and the second may be the first of several that make one character, or may lie beyond the text.  Each scan over bytes
is the scan over characters, applied to the text that has a character for each byte (`balancedEndFrom_eq`); and since the
bytes of other than ASCII characters are no signs to either scan, that finds the same bracket (`closingFrom_bytewise`).  So
the offset that is found stands behind a whole character (`balancedEnd_append`, `genericEnd_append`).
-/

namespace SourceArchive

open Text

namespace Delimiter

/-- The offset behind the bracket that closes the outermost of `depth` open ones, from byte `i` on.  Inside a string,
`quote` is its quotation mark. -/
def balancedEndFrom (bytes : List UInt8) (depth : Nat) (quote : Option UInt8) (i : Nat) : Option Nat :=
  if h : i < bytes.length then
    match quote with
    | some mark =>
      if bytes[i] = '\\'.toUInt8 then balancedEndFrom bytes depth (some mark) (i + 2)
      else balancedEndFrom bytes depth (if bytes[i] = mark then none else some mark) (i + 1)
    | none =>
      if quotes (.ofUInt8 bytes[i]) then balancedEndFrom bytes depth (some bytes[i]) (i + 1)
      else if opens (.ofUInt8 bytes[i]) then balancedEndFrom bytes (depth + 1) none (i + 1)
      else if closes (.ofUInt8 bytes[i]) then
        if depth - 1 = 0 then some (i + 1) else balancedEndFrom bytes (depth - 1) none (i + 1)
      else balancedEndFrom bytes depth none (i + 1)
  else none
termination_by bytes.length - i

/-- The offset behind the bracketed text that begins at byte `i`. -/
def balancedEnd (code : Text) (i : Nat) : Option Nat := balancedEndFrom code.byteList 0 none i

/-- The offset behind the angle bracket that closes the outermost of `depth` open ones, from byte `i` on. -/
def genericEndFrom (bytes : List UInt8) (depth i : Nat) : Option Nat :=
  if h : i < bytes.length then
    if bytes[i] = '<'.toUInt8 then genericEndFrom bytes (depth + 1) (i + 1)
    else if bytes[i] = '>'.toUInt8 then
      if 0 < i ∧ bytes[i - 1] = '='.toUInt8 then genericEndFrom bytes depth (i + 1)
      else if depth - 1 = 0 then some (i + 1) else genericEndFrom bytes (depth - 1) (i + 1)
    else genericEndFrom bytes depth (i + 1)
  else none
termination_by bytes.length - i

/-- The offset behind the text in angle brackets that begins at byte `i`. -/
def genericEnd (code : Text) (i : Nat) : Option Nat := genericEndFrom code.byteList 0 i

/-! ## Bytes as characters -/

section Bytes

variable {bytes : List UInt8}

theorem drop_map_ofUInt8 {i : Nat} (h : i < bytes.length) :
    (bytes.drop i).map Char.ofUInt8 = Char.ofUInt8 bytes[i] :: (bytes.drop (i + 1)).map Char.ofUInt8 := by
  rw [List.drop_eq_getElem_cons h, List.map_cons]

theorem map_add_map (o : Option Nat) (i j : Nat) : (o.map (· + j)).map (i + ·) = o.map (i + j + ·) := by
  rw [Option.map_map]
  congr 1
  funext n
  simp
  omega

theorem balancedEndFrom_eq (depth : Nat) (quote : Option UInt8) (i : Nat) :
    balancedEndFrom bytes depth quote i =
      (closingFrom depth (quote.map Char.ofUInt8) ((bytes.drop i).map Char.ofUInt8)).map (i + ·) := by
  fun_induction balancedEndFrom bytes depth quote i with
  | case1 depth i hi mark hslash ih =>
    have hchar : Char.ofUInt8 bytes[i] = '\\' := (ofUInt8_eq_iff (by decide)).mpr hslash
    rw [drop_map_ofUInt8 hi, hchar, ih]
    rcases Nat.lt_or_ge (i + 1) bytes.length with hlt | hge
    · rw [drop_map_ofUInt8 hlt, Option.map_some, closingFrom_hidden, map_add_map]
    · -- nothing is left to be hidden
      rw [List.drop_of_length_le hge, List.drop_of_length_le (by omega)]
      rfl
  | case2 depth i hi mark hslash ih =>
    have hchar : Char.ofUInt8 bytes[i] ≠ '\\' := fun h => hslash ((ofUInt8_eq_iff (by decide)).mp h)
    rw [dite_eq_ite] at ih
    rw [drop_map_ofUInt8 hi, Option.map_some, closingFrom_within hchar, ih, map_add_map]
    by_cases hmark : bytes[i] = mark
    · rw [if_pos hmark, if_pos (congrArg Char.ofUInt8 hmark)]
      rfl
    · rw [if_neg hmark, if_neg fun h => hmark (ofUInt8_inj.mp h)]
      rfl
  | case3 depth i hi hquote ih =>
    rw [drop_map_ofUInt8 hi, Option.map_none, closingFrom_quote hquote, ih, map_add_map]
    rfl
  | case4 depth i hi hquote hopen ih =>
    rw [drop_map_ofUInt8 hi, Option.map_none, closingFrom_open (Bool.eq_false_iff.mpr hquote) hopen, ih, map_add_map]
    rfl
  | case5 depth i hi hquote hopen hclose hdepth =>
    rw [drop_map_ofUInt8 hi, Option.map_none,
      closingFrom_close (Bool.eq_false_iff.mpr hquote) (Bool.eq_false_iff.mpr hopen) hclose, if_pos (by omega)]
    rfl
  | case6 depth i hi hquote hopen hclose hdepth ih =>
    rw [drop_map_ofUInt8 hi, Option.map_none,
      closingFrom_close (Bool.eq_false_iff.mpr hquote) (Bool.eq_false_iff.mpr hopen) hclose, if_neg (by omega), ih,
      map_add_map]
    rfl
  | case7 depth i hi hquote hopen hclose ih =>
    rw [drop_map_ofUInt8 hi, Option.map_none, closingFrom_plain (Bool.eq_false_iff.mpr hquote)
      (Bool.eq_false_iff.mpr hopen) (Bool.eq_false_iff.mpr hclose), ih, map_add_map]
    rfl
  | case8 depth quote i hi =>
    rw [List.drop_of_length_le (Nat.le_of_not_lt hi)]
    rfl

/-- The character before a byte offset decides whether an angle bracket is part of an arrow. -/
theorem getLast?_take {i : Nat} (hi : i < bytes.length) :
    ((bytes.take i).map Char.ofUInt8).getLast? = some '=' ↔ 0 < i ∧ bytes[i - 1] = '='.toUInt8 := by
  rw [List.getLast?_map, List.getLast?_take]
  cases i with
  | zero => simp
  | succ i =>
    have hget : bytes[i]? = some bytes[i] := List.getElem?_eq_getElem (by omega)
    have hsign : Char.ofUInt8 bytes[i] = '=' ↔ bytes[i] = '='.toUInt8 := ofUInt8_eq_iff (by decide)
    simp [hget, hsign]

/-- A byte closes an angle bracket as its character does. -/
theorem closesAngle_iff {i : Nat} (hi : i < bytes.length) :
    (Char.ofUInt8 bytes[i] = '>' ∧ ((bytes.take i).map Char.ofUInt8).getLast? ≠ some '=') ↔
      bytes[i] = '>'.toUInt8 ∧ ¬ (0 < i ∧ bytes[i - 1] = '='.toUInt8) :=
  and_congr (ofUInt8_eq_iff (by decide)) (not_congr (getLast?_take hi))

theorem genericEndFrom_eq (depth i : Nat) : genericEndFrom bytes depth i =
    (angleClosingFrom depth ((bytes.take i).map Char.ofUInt8).getLast? ((bytes.drop i).map Char.ofUInt8)).map (i + ·) := by
  have hopens (b : UInt8) : Char.ofUInt8 b = '<' ↔ b = '<'.toUInt8 := ofUInt8_eq_iff (by decide)
  have hnext {j : Nat} (hj : j < bytes.length) :
      ((bytes.take (j + 1)).map Char.ofUInt8).getLast? = some (Char.ofUInt8 bytes[j]) := by
    rw [List.take_succ_eq_append_getElem hj, List.map_append, List.map_singleton, List.getLast?_concat]
  fun_induction genericEndFrom bytes depth i with
  | case1 depth i hi hopen ih =>
    rw [drop_map_ofUInt8 hi, angleClosingFrom, if_pos ((hopens _).mpr hopen), ih, map_add_map, hnext hi]
  | case2 depth i hi hopen hclose harrow ih =>
    have harrow' := mt (closesAngle_iff hi).mp fun h => h.2 harrow
    rw [drop_map_ofUInt8 hi, angleClosingFrom, if_neg (mt (hopens _).mp hopen), if_neg harrow', ih, map_add_map, hnext hi]
  | case3 depth i hi hopen hclose harrow hdepth =>
    have hclose' := (closesAngle_iff hi).mpr ⟨hclose, harrow⟩
    rw [drop_map_ofUInt8 hi, angleClosingFrom, if_neg (mt (hopens _).mp hopen), if_pos hclose', if_pos (by omega)]
    rfl
  | case4 depth i hi hopen hclose harrow hdepth ih =>
    have hclose' := (closesAngle_iff hi).mpr ⟨hclose, harrow⟩
    rw [drop_map_ofUInt8 hi, angleClosingFrom, if_neg (mt (hopens _).mp hopen), if_pos hclose', if_neg (by omega), ih,
      map_add_map, hnext hi]
  | case5 depth i hi hopen hclose ih =>
    have hclose' := mt (closesAngle_iff hi).mp fun h => hclose h.1
    rw [drop_map_ofUInt8 hi, angleClosingFrom, if_neg (mt (hopens _).mp hopen), if_neg hclose', ih, map_add_map, hnext hi]
  | case6 depth i hi =>
    rw [List.drop_of_length_le (Nat.le_of_not_lt hi)]
    rfl

end Bytes

/-! ## Characters of several bytes -/

theorem ne_of_le_toNat {c d : Char} (h : 128 ≤ c.toNat) (hd : d.toNat < 128) : c ≠ d := by
  rintro rfl
  omega

theorem toNat_lt_of_quotes {c : Char} (h : quotes c = true) : c.toNat < 128 := by
  simp only [quotes, Bool.or_eq_true, beq_iff_eq] at h
  rcases h with (rfl | rfl) | rfl <;> decide

/-- The sign to either scan is ASCII. -/
theorem plain_of_le_toNat {c : Char} (h : 128 ≤ c.toNat) : quotes c = false ∧ opens c = false ∧ closes c = false := by
  have hne {d : Char} (hd : d.toNat < 128) : (c == d) = false := beq_eq_false_iff_ne.mpr (ne_of_le_toNat h hd)
  simp [quotes, opens, closes, hne]

section Passed

variable {x : Text} (hx : ∀ c ∈ x, 128 ≤ c.toNat)

include hx

theorem closingFrom_pass {quote : Option Char} (hquote : ∀ mark ∈ quote, quotes mark = true) (depth : Nat) (r : Text) :
    closingFrom depth quote (x ++ r) = (closingFrom depth quote r).map (· + x.length) := by
  induction x with
  | nil => simp
  | cons c x ih =>
    obtain ⟨hc, hx⟩ := List.forall_mem_cons.mp hx
    have hlength (o : Option Nat) : (o.map (· + x.length)).map (· + 1) = o.map (· + (c :: x).length) := by
      rw [Option.map_map]
      congr 1
    rw [← hlength, ← ih hx, List.cons_append]
    cases quote with
    | none =>
      obtain ⟨hquotes, hopens, hcloses⟩ := plain_of_le_toNat hc
      exact closingFrom_plain hquotes hopens hcloses
    | some mark =>
      have hmark : c ≠ mark := ne_of_le_toNat hc (toNat_lt_of_quotes (hquote mark rfl))
      rw [closingFrom_within (ne_of_le_toNat hc (by decide)), if_neg hmark]

theorem angleClosingFrom_pass (depth : Nat) (previous : Option Char) (r : Text) :
    angleClosingFrom depth previous (x ++ r) = (angleClosingFrom depth (x.getLast?.or previous) r).map (· + x.length) := by
  induction x generalizing previous with
  | nil => simp
  | cons c x ih =>
    obtain ⟨hc, hx⟩ := List.forall_mem_cons.mp hx
    have hlength (o : Option Nat) : (o.map (· + x.length)).map (· + 1) = o.map (· + (c :: x).length) := by
      rw [Option.map_map]
      congr 1
    rw [← hlength, getLast?_cons_or, ← ih hx, List.cons_append, angleClosingFrom, if_neg (ne_of_le_toNat hc (by decide)),
      if_neg fun h => ne_of_le_toNat hc (by decide) h.1]

end Passed

/-- An offset behind a character more. -/
theorem map_byteLength_cons (c : Char) (r : Text) (o : Option Nat) :
    (o.map (· + 1)).map (fun n => byteLength ((c :: r).take n)) =
      (o.map fun n => byteLength (r.take n)).map (· + c.utf8Size) := by
  rw [Option.map_map, Option.map_map]
  congr 1
  funext n
  show byteLength ((c :: r).take (n + 1)) = _
  rw [List.take_succ_cons, byteLength_cons, Nat.add_comm]
  rfl

theorem toNat_lt_of_opens {c : Char} (h : opens c = true) : c.toNat < 128 := by
  by_contra hc
  rw [(plain_of_le_toNat (by omega)).2.1] at h
  cases h

theorem toNat_lt_of_closes {c : Char} (h : closes c = true) : c.toNat < 128 := by
  by_contra hc
  rw [(plain_of_le_toNat (by omega)).2.2] at h
  cases h

theorem closingFrom_bytewise {quote : Option Char} (hquote : ∀ mark ∈ quote, quotes mark = true) (depth : Nat) (t : Text) :
    closingFrom depth quote t.bytewise = (closingFrom depth quote t).map fun n => byteLength (t.take n) := by
  fun_induction closingFrom depth quote t with
  | case1 => rfl
  | case2 depth mark =>
    rw [bytewise_cons_of_ascii (by decide)]
    rfl
  | case3 depth mark c r ih =>
    have htwo (o : Option Nat) : o.map (· + 2) = (o.map (· + 1)).map (· + 1) := by rw [Option.map_map]; rfl
    rw [bytewise_cons_of_ascii (by decide), htwo, map_byteLength_cons, map_byteLength_cons, ← ih hquote,
      utf8Size_of_ascii (by decide)]
    by_cases hc : c.toNat < 128
    · rw [bytewise_cons_of_ascii hc, closingFrom_hidden, htwo, utf8Size_of_ascii hc]
    · -- the first byte of the character is hidden, and the others are passed
      obtain ⟨d, x, hx, hlength, hmem⟩ := exists_bytewise_cons (Nat.le_of_not_lt hc) r
      rw [hx, List.cons_append, closingFrom_hidden, closingFrom_pass (fun e he => hmem e (List.mem_cons_of_mem d he)) hquote,
        ← hlength, Option.map_map, Option.map_map]
      congr 1
  | case4 depth c r mark hslash ih =>
    rw [map_byteLength_cons, ← ih fun mark' h => hquote mark' ?_]
    · by_cases hc : c.toNat < 128
      · rw [bytewise_cons_of_ascii hc, closingFrom_within hslash, utf8Size_of_ascii hc]
      · obtain ⟨d, x, hx, hlength, hmem⟩ := exists_bytewise_cons (Nat.le_of_not_lt hc) r
        have hmark : c ≠ mark := ne_of_le_toNat (by omega) (toNat_lt_of_quotes (hquote mark rfl))
        rw [hx, closingFrom_pass hmem hquote, hlength, if_neg hmark]
    · split at h
      · cases h
      · exact h
  | case5 depth c r hmark ih =>
    have hascii := toNat_lt_of_quotes hmark
    rw [bytewise_cons_of_ascii hascii, closingFrom_quote hmark, map_byteLength_cons, utf8Size_of_ascii hascii,
      ih fun mark h => Option.some.inj h ▸ hmark]
  | case6 depth c r hmark hopen ih =>
    have hascii := toNat_lt_of_opens hopen
    rw [bytewise_cons_of_ascii hascii, closingFrom_open (Bool.eq_false_iff.mpr hmark) hopen, map_byteLength_cons,
      utf8Size_of_ascii hascii, ih hquote]
  | case7 depth c r hmark hopen hclose hdepth =>
    have hascii := toNat_lt_of_closes hclose
    rw [bytewise_cons_of_ascii hascii,
      closingFrom_close (Bool.eq_false_iff.mpr hmark) (Bool.eq_false_iff.mpr hopen) hclose, if_pos hdepth]
    simp [utf8Size_of_ascii hascii]
  | case8 depth c r hmark hopen hclose hdepth ih =>
    have hascii := toNat_lt_of_closes hclose
    rw [bytewise_cons_of_ascii hascii,
      closingFrom_close (Bool.eq_false_iff.mpr hmark) (Bool.eq_false_iff.mpr hopen) hclose, if_neg hdepth,
      map_byteLength_cons, utf8Size_of_ascii hascii, ih hquote]
  | case9 depth c r hmark hopen hclose ih =>
    rw [map_byteLength_cons, ← ih hquote]
    by_cases hc : c.toNat < 128
    · rw [bytewise_cons_of_ascii hc, closingFrom_plain (Bool.eq_false_iff.mpr hmark) (Bool.eq_false_iff.mpr hopen)
        (Bool.eq_false_iff.mpr hclose), utf8Size_of_ascii hc]
    · obtain ⟨d, x, hx, hlength, hmem⟩ := exists_bytewise_cons (Nat.le_of_not_lt hc) r
      rw [hx, closingFrom_pass hmem hquote, hlength]

/-- What was read before matters to the scan only if it was an equals sign. -/
theorem angleClosingFrom_bytewise {depth : Nat} {previous previous' : Option Char}
    (h : previous = some '=' ↔ previous' = some '=') (t : Text) : angleClosingFrom depth previous' t.bytewise =
      (angleClosingFrom depth previous t).map fun n => byteLength (t.take n) := by
  fun_induction angleClosingFrom depth previous t generalizing previous' with
  | case1 => rfl
  | case2 depth previous r ih =>
    rw [bytewise_cons_of_ascii (by decide), angleClosingFrom, if_pos rfl, map_byteLength_cons, ih Iff.rfl,
      utf8Size_of_ascii (by decide)]
  | case3 depth previous c r hopen hclose hdepth =>
    have hascii : c.toNat < 128 := by
      rw [hclose.1]
      decide
    rw [bytewise_cons_of_ascii hascii, angleClosingFrom, if_neg hopen, if_pos ⟨hclose.1, fun h' => hclose.2 (h.mpr h')⟩,
      if_pos hdepth]
    simp [utf8Size_of_ascii hascii]
  | case4 depth previous c r hopen hclose hdepth ih =>
    have hascii : c.toNat < 128 := by
      rw [hclose.1]
      decide
    rw [bytewise_cons_of_ascii hascii, angleClosingFrom, if_neg hopen, if_pos ⟨hclose.1, fun h' => hclose.2 (h.mpr h')⟩,
      if_neg hdepth, map_byteLength_cons, ih Iff.rfl, utf8Size_of_ascii hascii]
  | case5 depth previous c r hopen hclose ih =>
    rw [map_byteLength_cons]
    by_cases hc : c.toNat < 128
    · rw [bytewise_cons_of_ascii hc, angleClosingFrom, if_neg hopen, if_neg fun h' => hclose ⟨h'.1, fun h'' => h'.2 (h.mp h'')⟩,
        ih Iff.rfl, utf8Size_of_ascii hc]
    · obtain ⟨d, x, hx, hlength, hmem⟩ := exists_bytewise_cons (Nat.le_of_not_lt hc) r
      have hlast : some c = some '=' ↔ (d :: x).getLast?.or previous' = some '=' := by
        refine iff_of_false (fun h' => ne_of_le_toNat (by omega) (by decide) (Option.some.inj h')) ?_
        rw [List.getLast?_eq_some_getLast (List.cons_ne_nil d x), Option.some_or]
        exact fun h' => ne_of_le_toNat (hmem _ (List.getLast_mem _)) (by decide) (Option.some.inj h')
      rw [hx, angleClosingFrom_pass hmem, hlength, ih hlast]

/-! ## The scans of a text -/

theorem balancedEnd_append (a t : Text) :
    balancedEnd (a ++ t) a.byteLength = (balancedLength? t).map fun n => byteLength (a ++ t.take n) := by
  have hscan : closingFrom 0 none (t.byteList.map Char.ofUInt8) = (balancedLength? t).map fun n => byteLength (t.take n) :=
    closingFrom_bytewise (fun mark h => by cases h) 0 t
  rw [balancedEnd, balancedEndFrom_eq, drop_byteLength, Option.map_none, hscan, Option.map_map]
  congr 1
  funext n
  exact (byteLength_append a _).symm

/-- An angle bracket at the beginning is no part of an arrow, whatever stands before it. -/
theorem genericEnd_append (a r : Text) : genericEnd (a ++ '<' :: r) a.byteLength =
    (genericLength? ('<' :: r)).map fun n => byteLength (a ++ ('<' :: r).take n) := by
  have hopen (previous : Option Char) (t : Text) : angleClosingFrom 0 previous ('<' :: t) = genericLength? ('<' :: t) := rfl
  have hscan : genericLength? (bytewise ('<' :: r)) =
      (genericLength? ('<' :: r)).map fun n => byteLength (('<' :: r).take n) := angleClosingFrom_bytewise Iff.rfl ('<' :: r)
  rw [bytewise_cons_of_ascii (by decide)] at hscan
  rw [genericEnd, genericEndFrom_eq, drop_byteLength, ← bytewise, bytewise_cons_of_ascii (by decide), hopen, hscan,
    Option.map_map]
  congr 1
  funext n
  exact (byteLength_append a _).symm

end Delimiter

end SourceArchive
