import DebugConsole.Proofs.Variable.Characters
import DebugConsole.Proofs.Variable.Nodes

set_option autoImplicit false

/-!
# Which characters are decoded to bytes

A character that stands for itself is decoded to its code, and an octal escape to three octal digits.  So
the values are bytes unless a character has a code beyond them, which counts as one value however many bytes
it is printed as, or an octal escape is above `\377`, which no byte is printed as (`CharArray.IsNarrow`).
The same is true of the members of an array that is decoded from a string, wherever in a tree it stands
(`bytes_iff_isNarrow`).

An escape counts only where decoding comes to it: behind a part that is read by itself
(`CharArray.HasWideOctal`), and not where a backslash before it takes the next character along.
-/

namespace DebugConsole

namespace CharArray

variable {before rest text : List Char} {values : List Nat}

/-! ## Values that are bytes -/

/-- Does an octal escape above `\377` stand in the text, behind a part that is read by itself? -/
def HasWideOctal (text : List Char) : Prop :=
  ∃ (before : List Char) (values : List Nat) (a b c : Fin 8) (rest : List Char), Reads before values ∧
    text = before ++ (octal a b c ++ rest) ∧ 4 ≤ a.val

/-- No character has a code beyond a byte, and no octal escape is above `\377`. -/
structure IsNarrow (text : List Char) : Prop where
  codes : ∀ c ∈ text, c.toNat < 256
  octals : ¬ HasWideOctal text

theorem IsNarrow.of_append (hbefore : Reads before values) (h : IsNarrow (before ++ rest)) : IsNarrow rest where
  codes := fun c hc => h.codes c (List.mem_append_right before hc)
  octals := by
    rintro ⟨start, values', a, b, c, behind, hstart, rfl, ha⟩
    exact h.octals ⟨before ++ start, values ++ values', a, b, c, behind, hbefore.append hstart, by simp, ha⟩

theorem letterEscape_lt : ∀ e ∈ Printed.letterEscapes, e.1.toNat < 256 ∧ e.2 < 256 := by decide

theorem Reads.lt_of_isNarrow (h : Reads text values) (hnarrow : IsNarrow text) : ∀ v ∈ values, v < 256 := by
  induction h with
  | nil => exact List.forall_mem_nil _
  | @plain c rest _ hc _ ih =>
    have hread : Reads [c] [c.toNat] := .plain hc .nil
    have hrest : IsNarrow rest := .of_append hread hnarrow
    exact List.forall_mem_cons.2 ⟨hnarrow.codes c List.mem_cons_self, ih hrest⟩
  | @letter e rest _ he _ ih =>
    have hread : Reads ['\\', e.1] [e.2] := .letter he .nil
    have hrest : IsNarrow rest := .of_append hread hnarrow
    exact List.forall_mem_cons.2 ⟨(letterEscape_lt e he).2, ih hrest⟩
  | octal a b c _ ih =>
    have hoctal : Reads (CharArray.octal a b c) [(a * 64 + b * 8 + c : Nat)] := .octal a b c .nil
    have ha : a.val < 4 := Nat.lt_of_not_le fun ha => hnarrow.octals ⟨[], [], a, b, c, _, .nil, rfl, ha⟩
    exact List.forall_mem_cons.2 ⟨by omega, ih (.of_append hoctal hnarrow)⟩

theorem Reads.code_lt (h : Reads text values) (hlt : ∀ v ∈ values, v < 256) : ∀ c ∈ text, c.toNat < 256 := by
  have hdigit : ∀ d : Fin 8, (Nat.digitChar d).toNat < 256 := by decide
  have hbackslash : '\\'.toNat < 256 := by decide
  induction h with
  | nil => exact List.forall_mem_nil _
  | plain _ _ ih =>
    obtain ⟨hc, hlt⟩ := List.forall_mem_cons.1 hlt
    exact List.forall_mem_cons.2 ⟨hc, ih hlt⟩
  | letter he _ ih =>
    obtain ⟨-, hlt⟩ := List.forall_mem_cons.1 hlt
    exact List.forall_mem_cons.2 ⟨hbackslash, List.forall_mem_cons.2 ⟨(letterEscape_lt _ he).1, ih hlt⟩⟩
  | octal a b c _ ih =>
    obtain ⟨-, hlt⟩ := List.forall_mem_cons.1 hlt
    rw [List.forall_mem_append]
    refine ⟨?_, ih hlt⟩
    simp only [CharArray.octal, List.forall_mem_cons]
    exact ⟨hbackslash, hdigit a, hdigit b, hdigit c, List.forall_mem_nil _⟩

/-- What is read is bytes exactly if the text is narrow. -/
theorem Reads.lt_iff (h : Reads text values) : (∀ v ∈ values, v < 256) ↔ IsNarrow text := by
  refine ⟨fun hlt => ⟨h.code_lt hlt, ?_⟩, h.lt_of_isNarrow⟩
  rintro ⟨before, values', a, b, c, rest, hbefore, rfl, ha⟩
  -- The escape is read where the part before it ends, whatever stands there.
  have hdecode := h.decodeFrom_append "" []
  rw [List.append_nil, hbefore.decodeFrom_append, decodeFrom_octal] at hdecode
  cases hrest : decodeFrom "" 0 rest with
  | error e =>
    rw [hrest] at hdecode
    cases hdecode
  | ok behind =>
    rw [hrest] at hdecode
    have hvalues : values' ++ (a * 64 + b * 8 + c : Nat) :: behind = values := by
      simpa [Except.map] using hdecode
    have hwide := hlt (a * 64 + b * 8 + c : Nat) (by simp [← hvalues])
    omega

end CharArray

/-! ## Arrays that are decoded from strings -/

namespace Variable

variable {name : String} {text : List Char} {path : List Nat} {values : List Nat} {v w : Variable}

/-- A member that holds a byte. -/
def IsByte (m : Variable) : Prop := ∃ (name : String) (n : Nat), n < 256 ∧ m = .scalar name .integer (toString n)

theorem toString_inj {m n : Nat} (h : toString m = toString n) : m = n := by
  have hdigits : Nat.toDigits 10 m = Nat.toDigits 10 n := by
    rw [← Nat.toList_repr, ← Nat.toList_repr]
    exact congrArg String.toList h
  rw [← Nat.ofDigitChars_ten_toDigits (n := m), ← Nat.ofDigitChars_ten_toDigits (n := n), hdigits]

theorem isByte_byteMembers_iff : (∀ m ∈ Draft.byteMembers values, m.IsByte) ↔ ∀ v ∈ values, v < 256 := by
  constructor
  · intro h v hv
    obtain ⟨place, hplace⟩ := List.getElem?_of_mem hv
    obtain ⟨name, n, hn, heq⟩ := h _ (List.mem_map.2 ⟨(v, place), List.mem_zipIdx_iff_getElem?.2 hplace, rfl⟩)
    rwa [toString_inj (Variable.scalar.inj heq).2.2]
  · intro h m hm
    obtain ⟨place, hplace⟩ := List.getElem?_of_mem hm
    obtain ⟨value, hvalue, rfl⟩ := getElem?_byteMembers hplace
    exact ⟨toString place, value, h value (List.mem_of_getElem? hvalue), rfl⟩

/-- What is decoded to characters is printed in quotes. -/
theorem quotation_of_characters (h : originAt? text path = some (.characters values)) :
    ∃ piece inside, textAt? text path = some piece ∧ Text.trim piece = '"' :: (inside ++ ['"']) ∧
      CharArray.decode (String.ofList inside) = .ok values := by
  obtain ⟨piece, hpiece, horigin⟩ := Option.bind_eq_some_iff.1 h
  obtain ⟨_, _, -, heq⟩ | ⟨_, hliteral, heq⟩ | ⟨_, _, -, -, heq⟩ := cases_of_origin? horigin
  · cases heq
  · cases heq
    obtain ⟨inside, htrim, hdecode⟩ := Literal.exists_quotation_of_bytes hliteral
    exact ⟨piece, inside, hpiece, htrim, hdecode⟩
  · cases heq

theorem members_of_characters (h : decode name text = .ok v) (hw : v.at? path = some w)
    (hvalues : originAt? text path = some (.characters values)) : w.members = Draft.byteMembers values := by
  obtain ⟨piece, hpiece, hbuilt⟩ | ⟨hnone, -⟩ := at?_cases (build_of_decode h) hw
  · obtain ⟨origin, horigin, hmade⟩ := exists_origin hbuilt
    rw [originAt?, hpiece, Option.bind_some, horigin] at hvalues
    cases hvalues
    generalize w.name = name at hmade
    cases hmade
    rfl
  · cases hnone.symm.trans hvalues

end Variable

namespace CharArray

open Variable (textAt? originAt? IsByte)

/-- Characters are decoded to bytes exactly if they are narrow, and so are those of each string in a tree. -/
theorem bytes_iff_isNarrow (body name : String) (text : List Char) :
    (∀ values, decode body = .ok values → ((∀ v ∈ values, v < 256) ↔ IsNarrow body.toList)) ∧
      ∀ v path w values, Variable.decode name text = .ok v → v.at? path = some w →
        originAt? text path = some (.characters values) →
        ∃ piece inside, textAt? text path = some piece ∧ Text.trim piece = '"' :: (inside ++ ['"']) ∧
          ((∀ m ∈ w.members, m.IsByte) ↔ IsNarrow inside) := by
  refine ⟨fun values h => (decode_eq_ok_iff.1 h).lt_iff, ?_⟩
  intro v path w values h hw hvalues
  obtain ⟨piece, inside, hpiece, htrim, hdecode⟩ := Variable.quotation_of_characters hvalues
  refine ⟨piece, inside, hpiece, htrim, ?_⟩
  have hreads := decode_eq_ok_iff.1 hdecode
  rw [String.toList_ofList] at hreads
  rw [Variable.members_of_characters h hw hvalues, Variable.isByte_byteMembers_iff, hreads.lt_iff]

/-- The largest byte, and a letter behind it. -/
theorem bytes_iff_isNarrow_largest :
    let inside := "\\377\\n".toList
    let text := '"' :: (inside ++ ['"'])
    let v : Variable := .aggregate "v" .array [.scalar "0" .integer "255", .scalar "1" .integer "10"]
    decode "\\377\\n" = .ok [255, 10] ∧ IsNarrow inside ∧ Variable.decode "v" text = .ok v ∧
      originAt? text [] = some (.characters [255, 10]) ∧ ∀ m ∈ v.members, m.IsByte := by
  intro inside text v
  have hbody : decode "\\377\\n" = .ok [255, 10] := rfl
  have htree : Variable.decode "v" text = .ok v := rfl
  have hvalues : originAt? text [] = some (.characters [255, 10]) := rfl
  obtain ⟨hread, hmembers⟩ := bytes_iff_isNarrow "\\377\\n" "v" text
  have hnarrow : IsNarrow inside := (hread _ hbody).1 (by decide)
  refine ⟨hbody, hnarrow, htree, hvalues, ?_⟩
  obtain ⟨piece, inside', hpiece, htrim, hbytes⟩ := hmembers v [] v _ htree rfl hvalues
  obtain rfl : text = piece := Option.some.inj hpiece
  obtain rfl : inside = inside' := List.append_cancel_right (List.cons.inj htrim).2
  exact hbytes.2 hnarrow

/-- The euro sign counts as one value, and `\400` as a value behind the last byte. -/
theorem euro_is_one_value :
    decode "\\n€" = .ok [10, 8364] ∧ decode "\\400" = .ok [256] ∧
      Variable.decode "v" "\"\\n€\"".toList =
        .ok (.aggregate "v" .array [.scalar "0" .integer "10", .scalar "1" .integer "8364"]) :=
  ⟨rfl, rfl, rfl⟩

end CharArray

end DebugConsole
