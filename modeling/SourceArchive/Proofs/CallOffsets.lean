import SourceArchive.Facts.State
import SourceArchive.Proofs.ByteScans
import SourceArchive.Proofs.Reading

/-!
# Calls read at byte offsets

A call can be read by byte offsets into the code: blanks are skipped, the ends of the type argument and of the arguments are
found by the scans over bytes, and the texts between are cut out.  Each cut fails if an offset lies beyond the code or within
a character, or if the first lies behind the second.  None of this happens, whatever the code is and wherever in it a
character begins: the offsets of the scans are exact (`EndsAt.endsAtByte`), and what is cut out is what `callParts` reads
(`callPartsAt?_append`).
-/

namespace SourceArchive

open Pattern Text Delimiter

namespace Delimiter

theorem take_enclosed (o c : Char) (w r : Text) : (o :: (w ++ c :: r)).take (w.length + 2) = o :: (w ++ [c]) := by
  rw [List.take_succ_cons, List.append_cons, List.take_left' (by simp)]

namespace Counting

variable {σ : Type} {k : Counting σ} {s : σ}

/-- A bracket that closes is ASCII and closes one. -/
def Single (k : Counting σ) : Prop := ∀ s c, k.weight s c < 0 → k.weight s c = -1 ∧ c.toNat < 128

theorem single_brackets : brackets.Single := by
  intro s c h
  cases s with
  | outside =>
    rw [weight_outside] at h ⊢
    split_ifs at h ⊢ with hopen hclose
    · cases h
    · exact ⟨rfl, toNat_lt_of_closes hclose⟩
    · cases h
  | within => cases h
  | hidden => cases h

theorem single_angles : angles.Single := by
  intro previous c h
  rw [weight_angle] at h ⊢
  split_ifs at h ⊢ with hopen hclose
  · cases h
  · rw [hclose.1]
    exact ⟨rfl, by decide⟩
  · cases h

/-- The bracket at byte `i` is closed by the character before byte `e`, and not before; without such an offset, it stays
open up to the end of the code. -/
def EndsAtByte (k : Counting σ) (s : σ) (code : Text) (i : Nat) : Option Nat → Prop
  | none => ∃ (a : Text) (o : Char) (r : Text), code = a ++ o :: r ∧ a.byteLength = i ∧ k.StaysOpen s [o] r
  | some e => i + 2 ≤ e ∧ e ≤ code.byteLength ∧
      ∃ (a : Text) (o : Char) (w : Text) (c : Char) (r : Text), code = a ++ o :: (w ++ c :: r) ∧ a.byteLength = i ∧
        byteLength (a ++ o :: (w ++ [c])) = e ∧ k.weight (k.behind s (o :: w)) c = -1 ∧ k.Closes s [o] w c

variable {o : Char} {r : Text} {end? : Option Nat}

theorem EndsAt.endsAtByte (h : k.EndsAt s [o] r end?) (hk : k.Single) (ho : o.toNat < 128) (a : Text) :
    k.EndsAtByte s (a ++ o :: r) a.byteLength
      ((end?.map (· + 1)).map fun n => byteLength (a ++ (o :: r).take n)) := by
  cases end? with
  | none => exact ⟨a, o, r, rfl, rfl, h⟩
  | some n =>
    obtain ⟨w, c, r, rfl, rfl, hcloses⟩ := h
    obtain ⟨hweight, hc⟩ := hk _ c hcloses.weight_neg
    rw [Option.map_some, Option.map_some, take_enclosed]
    refine ⟨?_, ?_, a, o, w, c, r, rfl, rfl, rfl, hweight, hcloses⟩
    · simp [utf8Size_of_ascii ho, utf8Size_of_ascii hc]
      omega
    · simp

/-- A scan that finds an end has text between the two brackets. -/
theorem EndsAt.exists_enclosed (h : k.EndsAt s [o] r end?) (hk : k.Single) {n : Nat} (hn : end?.map (· + 1) = some n) :
    ∃ (w : Text) (c : Char) (u : Text), r = w ++ c :: u ∧ n = w.length + 2 ∧ c.toNat < 128 := by
  obtain ⟨n, rfl, rfl⟩ := Option.map_eq_some_iff.mp hn
  obtain ⟨w, c, u, rfl, rfl, hcloses⟩ := h
  exact ⟨w, c, u, rfl, rfl, (hk _ c hcloses.weight_neg).2⟩

end Counting

open Counting

theorem balancedEnd_endsAtByte {code : Text} {i : Nat} {b : UInt8} (hb : code.byteList[i]? = some b)
    (hopen : opens (.ofUInt8 b) = true) : brackets.EndsAtByte .outside code i (balancedEnd code i) := by
  obtain ⟨a, r, rfl, rfl⟩ := exists_of_byte hb (toNat_lt_of_opens hopen)
  obtain ⟨end?, hlength, hends⟩ := balancedLength?_cons hopen r
  rw [balancedEnd_append, hlength]
  exact hends.endsAtByte single_brackets (toNat_lt_of_opens hopen) a

theorem genericEnd_endsAtByte {code : Text} {i : Nat} (hb : code.byteList[i]? = some '<'.toUInt8) :
    angles.EndsAtByte none code i (genericEnd code i) := by
  obtain ⟨a, r, rfl, rfl⟩ := exists_of_byte hb (by decide)
  have hchar : Char.ofUInt8 '<'.toUInt8 = '<' := by decide
  obtain ⟨end?, hlength, hends⟩ := genericLength?_cons r
  rw [hchar, genericEnd_append, hlength]
  exact hends.endsAtByte single_angles (by decide) a

theorem exists_of_balancedLength? {o : Char} {r : Text} {n : Nat} (ho : opens o = true)
    (h : balancedLength? (o :: r) = some n) :
    ∃ (w : Text) (c : Char) (u : Text), r = w ++ c :: u ∧ n = w.length + 2 ∧ c.toNat < 128 := by
  obtain ⟨end?, hlength, hends⟩ := balancedLength?_cons ho r
  exact hends.exists_enclosed single_brackets (hlength.symm.trans h)

theorem exists_of_genericLength? {r : Text} {n : Nat} (h : genericLength? ('<' :: r) = some n) :
    ∃ (w : Text) (c : Char) (u : Text), r = w ++ c :: u ∧ n = w.length + 2 ∧ c.toNat < 128 := by
  obtain ⟨end?, hlength, hends⟩ := genericLength?_cons r
  exact hends.exists_enclosed single_angles (hlength.symm.trans h)

/-- What stands between two brackets is cut out at their offsets. -/
theorem slice?_enclosed {o c : Char} (ho : o.toNat < 128) (hc : c.toNat < 128) (a w u : Text) :
    (a ++ o :: (w ++ c :: u)).slice? (a.byteLength + 1) (byteLength (a ++ o :: (w ++ [c])) - 1) = some w := by
  refine slice?_eq_some_iff.mpr ⟨a ++ [o], c :: u, by simp, by simp [utf8Size_of_ascii ho], ?_⟩
  simp [utf8Size_of_ascii ho, utf8Size_of_ascii hc]
  omega

end Delimiter

/-! ## Reading a call -/

namespace Text

theorem slice?_rest (a r : Text) : (a ++ r).slice? a.byteLength (byteLength (a ++ r)) = some r :=
  slice?_eq_some_iff.mpr ⟨a, [], (List.append_nil _).symm, rfl, rfl⟩

/-- The offset behind the blanks from byte `start` on. -/
def skipBlanks? (code : Text) (start : Nat) : Option Nat := do
  let t ← code.slice? start code.byteLength
  return if t.all isBlank then code.byteLength else start + t.indentation.byteLength

theorem skipBlanks?_append (a r : Text) :
    skipBlanks? (a ++ r) a.byteLength = some (byteLength (a ++ r.indentation)) := by
  rw [skipBlanks?, slice?_rest]
  show some (if r.all isBlank = true then _ else _) = _
  split_ifs with hblank
  · have hall : r.indentation = r := by
      have hwhole := indentation_append_trimStart r
      rwa [Blank.trimStart_eq (List.all_eq_true.mp hblank), List.append_nil] at hwhole
    rw [hall]
  · rw [byteLength_append]

end Text

namespace StateVariable

/-- The type argument of a call that is read from byte `start` on, and the offset behind it. -/
def leadingTypeAt? (code : Text) (start : Nat) : Option (Option Text × Nat) := do
  let t ← code.slice? start code.byteLength
  if t.startsWith "<" then
    match genericEnd code start with
    | none => return (none, start)
    | some e =>
      let argument ← code.slice? (start + 1) (e - 1)
      let behind ← code.skipBlanks? e
      return (if argument.trim.isEmpty then none else some argument.trim, behind)
  else return (none, start)

/-- The arguments of a call that are read from byte `start` on. -/
def leadingArgumentsAt? (code : Text) (start : Nat) : Option Text := do
  let t ← code.slice? start code.byteLength
  if t.startsWith "(" then
    match balancedEnd code start with
    | none => return []
    | some e => code.slice? (start + 1) (e - 1)
  else return []

/-- The type argument and the arguments of a call, read from byte `start` on. -/
def callPartsAt? (code : Text) (start : Nat) : Option (Option Text × Text) := do
  let start ← code.skipBlanks? start
  let (explicit, start) ← leadingTypeAt? code start
  let arguments ← leadingArgumentsAt? code start
  return (explicit, arguments)

/-- The type argument with which a text begins, and what is behind it. -/
def leadingType (t : Text) : Option Text × Text :=
  match if t.startsWith "<" then genericLength? t else none with
  | none => (none, t)
  | some n =>
    let argument := (inner t n).trim
    (if argument.isEmpty then none else some argument, Text.trimStart (t.drop n))

/-- The arguments with which a text begins. -/
def leadingArguments (t : Text) : Text :=
  if t.startsWith "(" then
    match balancedLength? t with
    | none => []
    | some n => inner t n
  else []

/-- The two parts of a call are read one after the other. -/
theorem callParts_eq (behind : Text) : callParts behind =
    ((leadingType behind.trimStart).1, leadingArguments (leadingType behind.trimStart).2) := by
  have hparts : callParts behind = (fun p : Option Text × Text =>
      if p.2.startsWith "(" then
        match balancedLength? p.2 with
        | none => (p.1, [])
        | some n => (p.1, inner p.2 n)
      else (p.1, [])) (leadingType behind.trimStart) := rfl
  rw [hparts, leadingArguments]
  dsimp only
  split_ifs
  · cases balancedLength? (leadingType behind.trimStart).2 <;> rfl
  · rfl

theorem leadingTypeAt?_append (a t : Text) : ∃ b, t = b ++ (leadingType t).2 ∧
    leadingTypeAt? (a ++ t) a.byteLength = some ((leadingType t).1, byteLength (a ++ b)) := by
  rw [leadingTypeAt?, slice?_rest, leadingType]
  change ∃ b, _ ∧ (if t.startsWith "<" = true then _ else _) = _
  split_ifs with hopen
  · obtain ⟨r, hr⟩ := startsWith_iff.mp hopen
    obtain rfl : t = '<' :: r := hr.symm
    simp only [Option.bind_eq_bind, genericEnd_append]
    cases hlength : genericLength? ('<' :: r) with
    | none => exact ⟨[], rfl, by rw [List.append_nil]; rfl⟩
    | some n =>
      obtain ⟨w, c, u, rfl, rfl, hc⟩ := exists_of_genericLength? hlength
      have hsplit : a ++ '<' :: (w ++ c :: u) = a ++ '<' :: (w ++ [c]) ++ u := by simp
      have hskip : skipBlanks? (a ++ '<' :: (w ++ c :: u)) (byteLength (a ++ '<' :: (w ++ [c]))) =
          some (byteLength (a ++ '<' :: (w ++ [c]) ++ u.indentation)) := by
        rw [hsplit]
        exact skipBlanks?_append (a ++ '<' :: (w ++ [c])) u
      have hdrop : ('<' :: (w ++ c :: u)).drop (w.length + 2) = u := by simp
      refine ⟨'<' :: (w ++ [c]) ++ u.indentation, ?_, ?_⟩
      · dsimp only
        rw [hdrop, List.append_assoc, indentation_append_trimStart, List.cons_append, List.append_assoc]
        rfl
      · simp only [Option.map_some, take_enclosed, inner_cons_append]
        rw [slice?_enclosed (by decide) hc, Option.bind_some, hskip, Option.bind_some, List.append_assoc]
        rfl
  · exact ⟨[], rfl, by rw [List.append_nil]; rfl⟩

theorem leadingArgumentsAt?_append (a t : Text) :
    leadingArgumentsAt? (a ++ t) a.byteLength = some (leadingArguments t) := by
  rw [leadingArgumentsAt?, slice?_rest, leadingArguments]
  show (if t.startsWith "(" = true then _ else _) = _
  split_ifs with hopen
  · obtain ⟨r, rfl⟩ := startsWith_iff.mp hopen
    change (match balancedEnd (a ++ '(' :: r) a.byteLength with | none => _ | some e => _) =
      some (match balancedLength? ('(' :: r) with | none => _ | some n => _)
    rw [balancedEnd_append]
    cases hlength : balancedLength? ('(' :: r) with
    | none => rfl
    | some n =>
      obtain ⟨w, c, u, rfl, rfl, hc⟩ := exists_of_balancedLength? (by decide) hlength
      rw [Option.map_some, take_enclosed]
      show slice? (a ++ '(' :: (w ++ c :: u)) _ _ = some (inner ('(' :: (w ++ c :: u)) (w.length + 2))
      rw [slice?_enclosed (by decide) hc, inner_cons_append]
  · rfl

/-- Reading by offsets behind any text gives what is read there, and does not fail. -/
theorem callPartsAt?_append (a behind : Text) : callPartsAt? (a ++ behind) a.byteLength = some (callParts behind) := by
  obtain ⟨b, hbehind, hread⟩ := leadingTypeAt?_append (a ++ behind.indentation) behind.trimStart
  have hwhole : a ++ behind = a ++ behind.indentation ++ b ++ (leadingType behind.trimStart).2 := by
    rw [List.append_assoc _ b, ← hbehind, List.append_assoc, indentation_append_trimStart]
  rw [List.append_assoc, indentation_append_trimStart] at hread
  rw [callPartsAt?, skipBlanks?_append, callParts_eq]
  simp only [Option.bind_eq_bind, Option.bind_some, hread]
  rw [hwhole, leadingArgumentsAt?_append]
  rfl

/-- A match of a declaration ends where a character does. -/
theorem exists_ahead {code : Text} {m : Match} (hm : m ∈ declaration.matchesIn code) : ∃ a, code = a ++ m.behind := by
  have hmatch := isMatch_of_mem_matchesIn hm
  obtain ⟨v, hv⟩ := hmatch.opened_behind
  obtain ⟨w, hw⟩ := exists_reads hmatch.closed_mem
  exact ⟨v ++ w, (hv.trans hw).ahead_eq⟩

/-- The scans over bytes end behind the bracket that closes, and find nothing only if none does, in any code; they find
what the scans over characters find; and reading the call behind a declaration by their offsets does not fail. -/
theorem offsets_in_range (code : Text) :
    (∀ i b, code.byteList[i]? = some b → opens (.ofUInt8 b) = true →
      brackets.EndsAtByte .outside code i (balancedEnd code i)) ∧
    (∀ i, code.byteList[i]? = some '<'.toUInt8 → angles.EndsAtByte none code i (genericEnd code i)) ∧
    (∀ a t, code = a ++ t →
      balancedEnd code a.byteLength = (balancedLength? t).map fun n => byteLength (a ++ t.take n)) ∧
    (∀ a r, code = a ++ '<' :: r →
      genericEnd code a.byteLength = (genericLength? ('<' :: r)).map fun n => byteLength (a ++ ('<' :: r).take n)) ∧
    (∀ m ∈ declaration.matchesIn code,
      ∃ a, code = a ++ m.behind ∧ callPartsAt? code a.byteLength = some (callParts m.behind)) := by
  refine ⟨fun i b => balancedEnd_endsAtByte, fun i => genericEnd_endsAtByte, ?_, ?_, ?_⟩
  · rintro a t rfl
    exact balancedEnd_append a t
  · rintro a r rfl
    exact genericEnd_append a r
  · intro m hm
    obtain ⟨a, ha⟩ := exists_ahead hm
    refine ⟨a, ha, ?_⟩
    conv_lhs => rw [ha]
    exact callPartsAt?_append a m.behind

/-- A bracket in a string, behind a hidden character of two bytes. -/
theorem offsets_in_range_hidden_bracket :
    let code : Text := "const [é, s] = useState<Map<T, É>>(['\\é)', 1])".toList
    (∃ m ∈ declaration.matchesIn code, ∃ a, code = a ++ m.behind ∧
      callPartsAt? code a.byteLength = some (some "Map<T, É>".toList, "['\\é)', 1]".toList)) ∧
    brackets.EndsAtByte .outside code 36 (some 49) ∧ angles.EndsAtByte none code 24 (some 36) := by
  intro code
  refine ⟨?_, ?_, ?_⟩
  · have hparts : ∃ m ∈ declaration.matchesIn code,
        callParts m.behind = (some "Map<T, É>".toList, "['\\é)', 1]".toList) := by
      decide +kernel
    obtain ⟨m, hm, hparts⟩ := hparts
    obtain ⟨a, ha, hread⟩ := (offsets_in_range code).2.2.2.2 m hm
    exact ⟨m, hm, a, ha, hread.trans (congrArg some hparts)⟩
  · have hend : balancedEnd code 36 = some 49 :=
      ((offsets_in_range code).2.2.1 (code.take 34) (code.drop 34) (List.take_append_drop 34 code).symm).trans
        (by decide +kernel)
    have hround := (offsets_in_range code).1 36 '('.toUInt8 (by decide +kernel) (by decide)
    rwa [hend] at hround
  · have hend : genericEnd code 24 = some 36 :=
      ((offsets_in_range code).2.2.2.1 (code.take 23) (code.drop 24) (List.take_append_drop 23 code).symm).trans
        (by decide +kernel)
    have hangle := (offsets_in_range code).2.1 24 (by decide +kernel)
    rwa [hend] at hangle

end StateVariable

end SourceArchive
