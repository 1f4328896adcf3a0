import DebugConsole.Proofs.Variable.Recognition

set_option autoImplicit false

/-!
# Bytes inside quotes

The debugger has one way of printing a byte inside quotes: as the character itself where ASCII has a glyph
for it, and escaped otherwise.  No escape is a part of another one, and none goes on with what may follow
it: a letter is no octal digit, and an octal escape has its three digits always.  So a text is decoded byte
by byte, whatever bytes stand side by side, and decoding undoes printing (`decode_printed`).
-/

namespace DebugConsole.CharArray

/-- The control characters that are escaped by a letter. -/
def controlEscapes : List (Nat × Char) :=
  [(7, 'a'), (8, 'b'), (9, 't'), (10, 'n'), (11, 'v'), (12, 'f'), (13, 'r')]

/-- A byte as the debugger prints it inside quotes. -/
def printed (byte : UInt8) : List Char :=
  let n := byte.toNat
  let glyph := Char.ofNat n
  if glyph = '"' ∨ glyph = '\\' then ['\\', glyph]
  else if 32 ≤ n ∧ n < 127 then [glyph]
  else match controlEscapes.lookup n with
    | some letter => ['\\', letter]
    | none => ['\\', Nat.digitChar (n / 64), Nat.digitChar (n / 8 % 8), Nat.digitChar (n % 8)]

theorem toNat_glyph (byte : UInt8) : (Char.ofNat byte.toNat).toNat = byte.toNat := by
  have hvalid : byte.toNat.isValidChar := .inl (Nat.lt_trans byte.toNat_lt (by decide))
  rw [Char.ofNat, dif_pos hvalid]
  rfl

theorem letterEscapes_of_lookup {n : Nat} {letter : Char} (h : controlEscapes.lookup n = some letter) :
    (letter, n) ∈ Printed.letterEscapes := by
  have hall : ∀ e ∈ controlEscapes, (e.2, e.1) ∈ Printed.letterEscapes := by decide
  obtain ⟨before, behind, heq, -⟩ := List.lookup_eq_some_iff.1 h
  exact hall (n, letter) (heq ▸ List.mem_append_right before List.mem_cons_self)

/-- What is printed for a byte is one of the forms that are read. -/
theorem exists_byte (byte : UInt8) :
    ∃ b : Printed.Byte, b.text = printed byte ∧ b.value = byte.toNat := by
  have hglyph := toNat_glyph byte
  have hlt := byte.toNat_lt
  unfold printed
  dsimp only
  split
  · next hquote =>
    have hescape : (Char.ofNat byte.toNat, byte.toNat) ∈ Printed.letterEscapes := by
      rcases hquote with h | h <;> rw [h] at hglyph ⊢ <;> rw [← hglyph] <;> decide
    exact ⟨.letter _ hescape, rfl, rfl⟩
  · next hplain =>
    rw [not_or] at hplain
    split
    · exact ⟨.plain _ hplain (hglyph.symm ▸ hlt), rfl, hglyph⟩
    · split
      · next letter hletter => exact ⟨.letter _ (letterEscapes_of_lookup hletter), rfl, rfl⟩
      · exact ⟨.octal ⟨byte.toNat, hlt⟩, rfl, rfl⟩

/-- A printed byte is decoded as it is, whatever follows it. -/
theorem decodeFrom_printed (body : String) (byte : UInt8) (rest : List Char) :
    decodeFrom body 0 (printed byte ++ rest) =
      (decodeFrom body 0 rest).map (byte.toNat :: ·) := by
  obtain ⟨b, htext, hvalue⟩ := exists_byte byte
  rw [← htext, Printed.decodeFrom_byte, hvalue]

/-- Whatever bytes are printed side by side, decoding gives them back. -/
theorem decode_printed (bytes : List UInt8) :
    decode (String.ofList (bytes.flatMap printed)) = .ok (bytes.map UInt8.toNat) := by
  rw [decode, String.toList_ofList]
  generalize String.ofList (bytes.flatMap printed) = body
  induction bytes with
  | nil => rfl
  | cons byte bytes ih =>
    rw [List.flatMap_cons, decodeFrom_printed, ih, List.map_cons]
    rfl

/-- A backslash, a zero byte, digits and a bell. -/
example : decode "\\\\060\\0001\\a7" = .ok [92, 48, 54, 48, 0, 49, 7, 55] := by rfl

end DebugConsole.CharArray
