import DebugConsole.Proofs.Variable.Expansion
import DebugConsole.Proofs.Variable.Printed

set_option autoImplicit false

/-!
# What the characters of an array are read as

A character but the backslash is read as its code, and a backslash as one value with the letter or the three
octal digits behind it; more is read than a debugger prints.  `CharArray.Reads` relates a text to the values
that it is read as: a text is decoded exactly if it can be read (`decode_eq_ok_iff`), and decoding goes on
behind what has been read as if nothing stood before it (`Reads.decodeFrom_append`).
-/

namespace DebugConsole.CharArray

variable {body : String} {text before after rest : List Char} {values values' : List Nat} {c : Char} {v : Nat}

/-- An octal escape. -/
def octal (a b c : Fin 8) : List Char :=
  ['\\', Nat.digitChar a, Nat.digitChar b, Nat.digitChar c]

/-- A text, and the values that it is read as. -/
inductive Reads : List Char → List Nat → Prop
  | nil : Reads [] []
  | plain {c : Char} {rest : List Char} {values : List Nat} (h : c ≠ '\\') (hrest : Reads rest values) :
      Reads (c :: rest) (c.toNat :: values)
  | letter {e : Char × Nat} {rest : List Char} {values : List Nat} (h : e ∈ Printed.letterEscapes)
      (hrest : Reads rest values) : Reads ('\\' :: e.1 :: rest) (e.2 :: values)
  | octal (a b c : Fin 8) {rest : List Char} {values : List Nat} (hrest : Reads rest values) :
      Reads (octal a b c ++ rest) ((a * 64 + b * 8 + c : Nat) :: values)

/-! ## Escapes -/

theorem octalValue?_digitChar {d : Nat} (h : d < 8) : Text.octalValue? (Nat.digitChar d) = some d := by
  have hall : ∀ d < 8, Text.octalValue? (Nat.digitChar d) = some d := by decide
  exact hall d h

/-- A letter escape is not taken for an octal one. -/
theorem octalTriple?_letter {e : Char × Nat} (h : e ∈ Printed.letterEscapes) (rest : List Char) :
    octalTriple? (e.1 :: rest) = none := by
  have hall : ∀ e ∈ Printed.letterEscapes, Text.octalValue? e.1 = none := by decide
  unfold octalTriple?
  split
  · next hs =>
    obtain ⟨rfl, -⟩ := List.cons.inj hs
    rw [hall e h]
    rfl
  · rfl

theorem letterValue?_letter {e : Char × Nat} (h : e ∈ Printed.letterEscapes) : letterValue? e.1 = some e.2 := by
  have hall : ∀ e ∈ Printed.letterEscapes, letterValue? e.1 = some e.2 := by decide
  exact hall e h

theorem octalTriple?_octal (a b c : Fin 8) (rest : List Char) :
    octalTriple? (Nat.digitChar a :: Nat.digitChar b :: Nat.digitChar c :: rest) =
      some (a * 64 + b * 8 + c : Nat) := by
  rw [octalTriple?, octalValue?_digitChar a.isLt, octalValue?_digitChar b.isLt,
    octalValue?_digitChar c.isLt]
  rfl

theorem hasEscape_octal (a b c : Fin 8) (rest : List Char) : hasEscape (octal a b c ++ rest) = true := by
  simp only [octal, List.cons_append, List.nil_append]
  rw [hasEscape, octalTriple?_octal]
  rfl

theorem digitChar_of_octalValue? {d : Nat} (h : Text.octalValue? c = some d) :
    ∃ digit : Fin 8, c = Nat.digitChar digit ∧ d = digit := by
  have hlt := Text.octalValue?_lt h
  have hcode := Nat.toNat_digitChar_of_lt_ten (Nat.lt_trans hlt (by decide))
  refine ⟨⟨d, hlt⟩, Char.toNat_inj.1 (.trans ?_ hcode.symm), rfl⟩
  unfold Text.octalValue? at h
  split at h
  · next hdigit =>
    cases h
    simp only [Bool.and_eq_true, decide_eq_true_eq] at hdigit
    omega
  · cases h

theorem exists_octal (h : octalTriple? text = some v) : ∃ (a b c : Fin 8) (rest : List Char),
    text = Nat.digitChar a :: Nat.digitChar b :: Nat.digitChar c :: rest ∧ v = a * 64 + b * 8 + c := by
  unfold octalTriple? at h
  split at h
  · next first second third rest =>
    obtain ⟨_, ha, h⟩ := Option.bind_eq_some_iff.1 h
    obtain ⟨_, hb, h⟩ := Option.bind_eq_some_iff.1 h
    obtain ⟨_, hc, h⟩ := Option.bind_eq_some_iff.1 h
    obtain ⟨a, rfl, rfl⟩ := digitChar_of_octalValue? ha
    obtain ⟨b, rfl, rfl⟩ := digitChar_of_octalValue? hb
    obtain ⟨c, rfl, rfl⟩ := digitChar_of_octalValue? hc
    cases h
    exact ⟨a, b, c, rest, rfl, rfl⟩
  · cases h

theorem mem_letterEscapes (h : letterValue? c = some v) : (c, v) ∈ Printed.letterEscapes := by
  unfold letterValue? at h
  split at h <;> cases h <;> decide

/-! ## Reading and decoding -/

theorem decodeFrom_plain (h : c ≠ '\\') (body : String) (rest : List Char) :
    decodeFrom body 0 (c :: rest) = (decodeFrom body 0 rest).map (c.toNat :: ·) := by
  simp [decodeFrom, h]

theorem decodeFrom_letter {e : Char × Nat} (h : e ∈ Printed.letterEscapes) (body : String) (rest : List Char) :
    decodeFrom body 0 ('\\' :: e.1 :: rest) = (decodeFrom body 0 rest).map (e.2 :: ·) := by
  simp [decodeFrom, octalTriple?_letter h, letterValue?_letter h]

theorem decodeFrom_octal (a b c : Fin 8) (body : String) (rest : List Char) :
    decodeFrom body 0 (octal a b c ++ rest) =
      (decodeFrom body 0 rest).map ((a * 64 + b * 8 + c : Nat) :: ·) := by
  simp only [octal, List.cons_append, List.nil_append]
  rw [decodeFrom, octalTriple?_octal]
  rfl

/-- What is read in front of a text does not change how the text is decoded. -/
theorem Reads.decodeFrom_append (h : Reads before values) (body : String) (rest : List Char) :
    decodeFrom body 0 (before ++ rest) = (decodeFrom body 0 rest).map (values ++ ·) := by
  have hmap : ∀ (v : Nat) (values : List Nat), ((decodeFrom body 0 rest).map (values ++ ·)).map (v :: ·) =
      (decodeFrom body 0 rest).map (v :: values ++ ·) := fun v values => by
    cases decodeFrom body 0 rest <;> rfl
  induction h with
  | nil =>
    rw [List.nil_append]
    cases decodeFrom body 0 rest <;> rfl
  | plain hc _ ih => rw [List.cons_append, decodeFrom_plain hc, ih, hmap]
  | letter he _ ih => rw [List.cons_append, List.cons_append, decodeFrom_letter he, ih, hmap]
  | octal a b c _ ih => rw [List.append_assoc, decodeFrom_octal, ih, hmap]

theorem reads_of_decodeFrom {skip : Nat} (h : decodeFrom body skip text = .ok values) :
    Reads (text.drop skip) values := by
  fun_induction decodeFrom body skip text generalizing values with
  | case1 =>
    cases h
    rw [List.drop_nil]
    exact .nil
  | case2 c rest more ih => exact ih h
  | case3 c rest hplain ih =>
    obtain ⟨vs, hvs, rfl⟩ := Malformed.exists_of_map h
    exact .plain (bne_iff_ne.1 hplain) (ih hvs)
  | case4 c rest hescape v hoctal ih =>
    obtain ⟨vs, hvs, rfl⟩ := Malformed.exists_of_map h
    obtain ⟨a, b, d, rest, rfl, rfl⟩ := exists_octal hoctal
    obtain rfl : c = '\\' := by simpa using hescape
    exact .octal a b d (ih hvs)
  | case5 | case6 => cases h
  | case7 c hescape e rest v hletter hoctal ih =>
    obtain ⟨vs, hvs, rfl⟩ := Malformed.exists_of_map h
    obtain rfl : c = '\\' := by simpa using hescape
    exact .letter (mem_letterEscapes hletter) (ih hvs)

theorem decode_eq_ok_iff : decode body = .ok values ↔ Reads body.toList values := by
  refine ⟨reads_of_decodeFrom, fun h => ?_⟩
  have hdecode := h.decodeFrom_append body []
  rwa [List.append_nil, decodeFrom_nil, Except.map, List.append_nil] at hdecode

theorem Reads.append (h : Reads before values) (h' : Reads after values') :
    Reads (before ++ after) (values ++ values') := by
  induction h with
  | nil => exact h'
  | plain hc _ ih => exact .plain hc ih
  | letter he _ ih => exact .letter he ih
  | octal a b c _ ih =>
    rw [List.append_assoc]
    exact .octal a b c ih

end DebugConsole.CharArray
