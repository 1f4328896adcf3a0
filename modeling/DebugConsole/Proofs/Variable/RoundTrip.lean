import DebugConsole.Proofs.Variable.Recognition
import DebugConsole.Variable.Decode

set_option autoImplicit false

/-!
# Printed values are decoded to what they stand for

The text of a value passes the scanner at every depth, is recognised as what was printed and is never taken
for a member with a name.  So the inside of an aggregate is cut into its members, each of these is
classified, and the work list of open aggregates puts together the variable that the value stands for
(`decode_text`).

The induction is on the value that is printed, together with the members of aggregates; the blanks between
them are free, and are trimmed where the text is cut.
-/

namespace DebugConsole.Printed

open Text (isBlank isName trim)
open Segments (Passes Inside)

variable {shape : Shape} {c : Char} {s rest value : List Char}

/-! ## Blanks between values -/

theorem passes_gap (gap : Gap) (depth : Nat) : Passes depth gap.text := by
  refine Segments.passes_of_not_special depth fun c hc => ?_
  obtain ⟨blank, -, rfl⟩ := List.mem_map.1 hc
  cases blank <;> decide

/-- A blank ends no repeat. -/
theorem getLast?_gap (gap : Gap) : ∀ c ∈ gap.text.getLast?, c ≠ '>' ∧ c ≠ '\n' := by
  intro c hc
  obtain ⟨blank, -, rfl⟩ := List.mem_map.1 (List.mem_of_getLast? hc)
  cases blank <;> decide

theorem trim_framed (lead trail : Gap) (h : Framed s) : trim (lead.text ++ (s ++ trail.text)) = s := by
  obtain ⟨⟨first, hfirst, hblank, -⟩, ⟨last, hlast, hblank', -⟩⟩ := h
  refine Text.trim_append (isBlank_gap lead) (isBlank_gap trail) ?_ ?_
  · rintro c hc
    rwa [Option.mem_unique hc hfirst]
  · rintro c hc
    rwa [Option.mem_unique hc hlast]

/-! ## The texts of values -/

theorem Bare.passes (h : Bare s) (depth : Nat) : Passes depth s := by
  refine Segments.passes_of_not_special depth fun c hc hspecial => (h c hc).2 ?_
  have hall : ∀ c ∈ Segments.special, c ∈ marks := List.all_iff_forall_prop.1 (by decide)
  exact hall c hspecial

theorem Glyph.isInside (glyph : Glyph) : Inside '\'' glyph.inside := by
  refine .flatMap fun stroke _ => ?_
  cases stroke with
  | plain c h => exact .plain h .nil
  | escape c h => exact .escape c .nil

theorem passes_glyph (glyph : Option Glyph) (depth : Nat) : Passes depth (glyph.elim [] Glyph.text) := by
  cases glyph with
  | none => exact Segments.passes_nil depth
  | some glyph =>
    have hspace : Passes depth [' '] :=
      Segments.passes_of_not_special depth (List.forall_mem_singleton.2 (by decide))
    exact hspace.append (Segments.passes_quotation depth (.inr rfl) glyph.isInside)

theorem PlainText.isInside (string : PlainText) : Inside '"' string.chars := .of_forall string.all

theorem Integer.ne_nil (n : Integer) : n.text ≠ [] := by
  rw [Integer.text, Ne, List.append_eq_nil_iff, not_and]
  intro _
  cases n.magnitude with
  | decimal digits => exact digits.nonempty
  | hexadecimal digits => simp [Magnitude.text]

theorem Real.ne_nil (x : Real) : x.text ≠ [] := by
  rw [Real.text, Ne, List.append_eq_nil_iff, not_and]
  intro _
  cases x.scale with
  | fractional whole fraction power letter => simp [Scale.text]
  | scaled whole power letter => simp [Scale.text, Power.text]
  | infinite => simp [Scale.text]
  | nan payload => simp [Scale.text]

theorem Value.framed (v : Value) : Framed v.text := by
  cases v with
  | integer number glyph =>
    rw [Value.text]
    cases glyph with
    | none =>
      rw [Option.elim_none, List.append_nil]
      exact number.bare.framed number.ne_nil
    | some glyph =>
      obtain ⟨first, hfirst, hhead⟩ := (number.bare.framed number.ne_nil).head
      refine ⟨⟨first, ?_, hhead⟩, ⟨'\'', ?_, by decide⟩⟩
      · rw [List.head?_append, Option.mem_def.1 hfirst]
        rfl
      · rw [Option.elim_some, Glyph.text, ← List.cons_append, ← List.cons_append, ← List.append_assoc,
          List.getLast?_concat]
        rfl
  | real x =>
    rw [Value.text]
    exact x.bare.framed x.ne_nil
  | string string =>
    rw [Value.text]
    exact framed_of_ends _ (by decide) (by decide)
  | bytes b =>
    rw [Value.text]
    exact framed_of_ends _ (by decide) (by decide)
  | empty inside =>
    rw [Value.text]
    exact framed_of_ends _ (by decide) (by decide)
  | aggregate shape members =>
    rw [Value.text]
    exact framed_of_ends _ (by decide) (by decide)

theorem Label.passes (label : Label shape) (depth : Nat) : Passes depth label.text := by
  cases label with
  | place => exact Segments.passes_nil depth
  | named name before after =>
    have heq : Passes depth ['='] :=
      Segments.passes_of_not_special depth (List.forall_mem_singleton.2 (by decide))
    exact ((bare_name name).passes depth).append
      ((passes_gap before depth).append (heq.append (passes_gap after depth)))

theorem passes_part {depth : Nat} (lead trail : Gap) (label : Label shape) (h : Passes depth s) :
    Passes depth (lead.text ++ (label.text ++ s ++ trail.text)) :=
  (passes_gap lead depth).append (((label.passes depth).append h).append (passes_gap trail depth))

mutual

/-- The text of a value passes at every depth. -/
theorem Value.passes : (v : Value) → (depth : Nat) → Passes depth v.text
  | .integer number glyph, depth => by
    rw [Value.text]
    exact (number.bare.passes depth).append (passes_glyph glyph depth)
  | .real x, depth => by
    rw [Value.text]
    exact x.bare.passes depth
  | .string string, depth => by
    rw [Value.text]
    exact Segments.passes_quotation depth (.inl rfl) string.isInside
  | .bytes b, depth => by
    rw [Value.text]
    exact Segments.passes_quotation depth (.inl rfl) b.isInside
  | .empty inside, depth => by
    rw [Value.text]
    exact (passes_gap inside (depth + 1)).braces
  | .aggregate _ members, depth => by
    rw [Value.text]
    exact (Segments.passes_intercalate (members.passes (depth + 1))).braces

theorem Members.passes {shape : Shape} : (members : Members shape) → (depth : Nat) →
    ∀ p ∈ members.parts, Passes depth p
  | .last lead label v trail, depth => by
    rw [Members.parts, List.forall_mem_singleton]
    exact passes_part lead trail label (v.passes depth)
  | .more lead label v trail rest, depth => by
    rw [Members.parts, List.forall_mem_cons]
    exact ⟨passes_part lead trail label (v.passes depth), rest.passes depth⟩

end

/-! ## The segments of an aggregate -/

/-- The members without the blanks around them. -/
def Members.segments {shape : Shape} : Members shape → List (List Char)
  | .last _ label v _ => [label.text ++ v.text]
  | .more _ label v _ rest => (label.text ++ v.text) :: rest.segments

theorem Framed.ne_nil (h : Framed s) : s ≠ [] := by
  rintro rfl
  obtain ⟨c, hc, -⟩ := h.head
  cases hc

theorem Label.framed (label : Label shape) (h : Framed s) : Framed (label.text ++ s) := by
  cases label with
  | place => exact h
  | named name before after =>
    obtain ⟨last, hlast, hend⟩ := h.last
    obtain ⟨first, hfirst, hhead⟩ := ((bare_name name).framed name.nonempty).head
    refine ⟨⟨first, ?_, hhead⟩, ⟨last, ?_, hend⟩⟩
    · rw [Label.text, List.append_assoc, List.head?_append, Option.mem_def.1 hfirst]
      rfl
    · rw [List.getLast?_append, Option.mem_def.1 hlast]
      rfl

theorem Members.map_trim {shape : Shape} : (members : Members shape) →
    members.parts.map trim = members.segments
  | .last lead label v trail => by
    rw [Members.parts, List.map_singleton, trim_framed lead trail (label.framed v.framed), segments]
  | .more lead label v trail rest => by
    rw [Members.parts, List.map_cons, trim_framed lead trail (label.framed v.framed), rest.map_trim, segments]

theorem Members.ne_nil {shape : Shape} : (members : Members shape) →
    members.parts ≠ [] ∧ ∀ s ∈ members.segments, s ≠ []
  | .last _ label v _ => by
    rw [Members.parts, segments, List.forall_mem_singleton]
    exact ⟨List.cons_ne_nil _ _, (label.framed v.framed).ne_nil⟩
  | .more _ label v _ rest => by
    rw [Members.parts, segments, List.forall_mem_cons]
    exact ⟨List.cons_ne_nil _ _, (label.framed v.framed).ne_nil, rest.ne_nil.2⟩

/-- The inside of an aggregate is cut into its members. -/
theorem Members.split (members : Members shape) :
    Segments.split ([','].intercalate members.parts) = .ok members.segments := by
  rw [Segments.split_intercalate members.ne_nil.1 (members.passes 0), members.map_trim,
    List.filter_eq_self.2]
  intro s hs
  rw [Bool.not_eq_true', List.isEmpty_eq_false_iff]
  exact members.ne_nil.2 s hs

/-! ## Members with and without names -/

theorem memberName?_of_head (h : ∀ c ∈ s.head?, c ≠ '[' ∧ c ≠ '<') :
    Draft.memberName? s = Text.run? isName s := by
  unfold Draft.memberName?
  split
  · exact absurd rfl (h '[' rfl).1
  · exact absurd rfl (h '<' rfl).2
  · rfl

theorem member?_named (name : Name) (before : Gap) (hvalue : value ≠ []) :
    Draft.member? (name.chars ++ (before.text ++ '=' :: value)) =
      some (String.ofList name.chars, value) := by
  obtain ⟨first, hfirst, -, hhead⟩ := ((bare_name name).framed name.nonempty).head
  have hfollows : ∀ c ∈ (before.text ++ '=' :: value).head?, isName c = false := by
    obtain ⟨blanks⟩ := before
    cases blanks with
    | nil =>
      rintro c ⟨⟩
      decide
    | cons blank blanks =>
      rintro c ⟨⟩
      cases blank <;> decide
  have hname : Draft.memberName? (name.chars ++ (before.text ++ '=' :: value)) =
      some (name.chars, before.text ++ '=' :: value) := by
    rw [memberName?_of_head, Text.run?_append_of_all name.nonempty name.all hfollows]
    rw [List.head?_append, Option.mem_def.1 hfirst]
    rintro c ⟨⟩
    exact hhead
  have htrim : Text.trimLeft (before.text ++ '=' :: value) = '=' :: value := by
    rw [Text.trimLeft_append (isBlank_gap before), Text.trimLeft_eq_self]
    rintro c ⟨⟩
    decide
  rw [Draft.member?, hname]
  simp [htrim, hvalue]

/-- A text is no member with a name if no equals sign stands in it before a character that is neither blank
nor part of a name. -/
theorem member?_eq_none (hs : ∀ c ∈ s, c ≠ '=') (hhead : ∀ c ∈ (s ++ rest).head?, c ≠ '[' ∧ c ≠ '<')
    (hrest : ∀ c ∈ rest.head?, isName c = false ∧ isBlank c = false ∧ c ≠ '=') :
    Draft.member? (s ++ rest) = none := by
  rw [Draft.member?, memberName?_of_head hhead]
  cases hrun : Text.run? isName (s ++ rest) with
  | none => rfl
  | some result =>
    obtain ⟨name, tail⟩ := result
    have htail : Text.trimLeft tail = (s.dropWhile isName).dropWhile isBlank ++ rest := by
      rw [← Text.dropWhile_of_run? hrun, Text.dropWhile_append_of_head fun c hc => (hrest c hc).1,
        Text.trimLeft, Text.dropWhile_append_of_head fun c hc => (hrest c hc).2.1]
    have hne : ∀ c ∈ (Text.trimLeft tail).head?, c ≠ '=' := by
      rw [htail, List.head?_append]
      intro c hc
      rcases Option.or_eq_some_iff.1 hc with hc | ⟨-, hc⟩
      · exact hs c ((List.dropWhile_sublist _).mem ((List.dropWhile_sublist _).mem (List.mem_of_head? hc)))
      · exact (hrest c hc).2.2
    dsimp only
    split
    · next hs => exact absurd rfl (hne '=' (by rw [hs]; rfl))
    · rfl

theorem Bare.ne_equals (h : Bare s) : ∀ c ∈ s, c ≠ '=' := fun c hc =>
  ne_of_notMem_marks (h c hc).2 (by decide)

/-- A value is not taken for a member with a name. -/
theorem Value.member?_eq_none (v : Value) : Draft.member? v.text = none := by
  have hhead : ∀ c ∈ v.text.head?, c ≠ '[' ∧ c ≠ '<' := by
    obtain ⟨first, hfirst, -, hfirst'⟩ := v.framed.head
    intro c hc
    rwa [Option.mem_unique hc hfirst]
  cases v with
  | integer number glyph =>
    rw [Value.text] at hhead ⊢
    cases glyph with
    | none => exact Printed.member?_eq_none number.bare.ne_equals hhead (by rintro c ⟨⟩)
    | some glyph =>
      have hs : ∀ c ∈ number.text ++ [' '], c ≠ '=' := by
        rw [List.forall_mem_append, List.forall_mem_singleton]
        exact ⟨number.bare.ne_equals, by decide⟩
      rw [Option.elim_some, Glyph.text, ← List.singleton_append, ← List.append_assoc] at hhead ⊢
      exact Printed.member?_eq_none hs hhead (by rintro c ⟨⟩; decide)
  | real x =>
    rw [Value.text, ← List.append_nil x.text] at hhead ⊢
    exact Printed.member?_eq_none x.bare.ne_equals hhead (by rintro c ⟨⟩)
  | _ =>
    rw [Value.text, ← List.nil_append (_ :: _)] at hhead ⊢
    exact Printed.member?_eq_none (by rintro c ⟨⟩) hhead (by rintro c ⟨⟩; decide)

/-! ## Classified members -/

theorem getLast?_part (lead trail : Gap) (h : Framed s) :
    ∀ c ∈ (lead.text ++ (s ++ trail.text)).getLast?, c ≠ '>' ∧ c ≠ '\n' := by
  obtain ⟨last, hlast, hblank, hend⟩ := h.last
  intro c hc
  rw [List.getLast?_append, List.getLast?_append, Option.mem_def.1 hlast] at hc
  rcases Option.or_eq_some_iff.1 hc with hc | ⟨hnone, -⟩
  · rcases Option.or_eq_some_iff.1 hc with hc | ⟨-, hc⟩
    · exact getLast?_gap trail c hc
    · obtain rfl := Option.some.inj hc
      refine ⟨hend, ?_⟩
      rintro rfl
      cases hblank
  · simp at hnone

/-- The inside of an aggregate does not end as a repeat does. -/
theorem Members.getLast?_inside {shape : Shape} : (members : Members shape) →
    ∀ c ∈ ([','].intercalate members.parts).getLast?, c ≠ '>' ∧ c ≠ '\n'
  | .last lead label v trail => by
    rw [Members.parts, List.intercalate_singleton]
    exact getLast?_part lead trail (label.framed v.framed)
  | .more lead label v trail rest => by
    obtain ⟨p, ps, hparts⟩ := List.exists_cons_of_ne_nil rest.ne_nil.1
    have hrest := rest.getLast?_inside
    rw [hparts] at hrest
    rw [Members.parts, hparts, List.intercalate_cons_cons]
    intro c hc
    rw [List.getLast?_append] at hc
    rcases Option.or_eq_some_iff.1 hc with hc | ⟨-, hc⟩
    · exact hrest c hc
    · rw [List.getLast?_concat] at hc
      obtain rfl := Option.some.inj hc
      decide

/-- What a value is recognised as. -/
def Value.literal : Value → Literal
  | .integer number _ => .scalar .integer number.text
  | .real x => .scalar .float x.text
  | .string s => .scalar .string s.chars
  | .bytes b => .bytes (b.bytes.map Byte.value)
  | .empty inside => .braces inside.text
  | .aggregate _ members => .braces ([','].intercalate members.parts)

theorem Value.classify_text (v : Value) : Literal.classify v.text = .ok v.literal := by
  cases v with
  | integer number glyph => rw [Value.text, Literal.classify, integer?_text]; rfl
  | real x => rw [Value.text, Literal.classify, integer?_real, isFloat_text]; rfl
  | string string => rw [Value.text, classify_quotation string.isInside, ofQuotation_plain]; rfl
  | bytes b => rw [Value.text, classify_quotation b.isInside, ofQuotation_bytes]; rfl
  | empty inside => rw [Value.text, classify_braces (getLast?_gap inside)]; rfl
  | aggregate shape members => rw [Value.text, classify_braces members.getLast?_inside]; rfl

/-- A value that has been classified. -/
def Value.draft (name : String) (v : Value) : Draft := .ofLiteral name v.literal

theorem Value.ofText (name : String) (lead : Gap) (v : Value) :
    Draft.ofText name (lead.text ++ v.text) = .ok (v.draft name) := by
  have htrim : trim (lead.text ++ v.text) = v.text := by
    simpa [Gap.text] using trim_framed lead ⟨[]⟩ v.framed
  rw [Draft.ofText, htrim, v.classify_text]
  rfl

/-- The members from the given place onwards, classified. -/
def Members.drafts {shape : Shape} (place : Nat) : Members shape → List Draft
  | .last _ label v _ => [v.draft (label.name place)]
  | .more _ label v _ rest => v.draft (label.name place) :: rest.drafts (place + 1)

/-- A segment is taken apart into the label and the value that were printed. -/
theorem ofText_nameAndValue (place : Nat) (label : Label shape) (v : Value) :
    Draft.ofText (Draft.nameAndValue place (label.text ++ v.text)).1
      (Draft.nameAndValue place (label.text ++ v.text)).2 = .ok (v.draft (label.name place)) := by
  cases label with
  | place =>
    rw [Label.text, List.nil_append, Draft.nameAndValue, v.member?_eq_none]
    exact v.ofText (toString place) ⟨[]⟩
  | named name before after =>
    have hvalue : after.text ++ v.text ≠ [] := List.append_ne_nil_of_right_ne_nil _ v.framed.ne_nil
    rw [Label.text, List.append_assoc, List.append_assoc, List.cons_append, Draft.nameAndValue,
      member?_named name before hvalue]
    exact v.ofText (String.ofList name.chars) after

theorem isSome_member? (label : Label shape) (v : Value) :
    (Draft.member? (label.text ++ v.text)).isSome = (shape == .object) := by
  cases label with
  | place =>
    rw [Label.text, List.nil_append, v.member?_eq_none]
    rfl
  | named name before after =>
    have hvalue : after.text ++ v.text ≠ [] := List.append_ne_nil_of_right_ne_nil _ v.framed.ne_nil
    rw [Label.text, List.append_assoc, List.append_assoc, List.cons_append, member?_named name before hvalue]
    rfl

theorem ofSegments_cons {place : Nat} {segment : List Char} {segments : List (List Char)} {d : Draft}
    {ds : List Draft} (h : Draft.ofText (Draft.nameAndValue place segment).1
      (Draft.nameAndValue place segment).2 = .ok d) (hrest : Draft.ofSegments (place + 1) segments = .ok ds) :
    Draft.ofSegments place (segment :: segments) = .ok (d :: ds) := by
  simp only [Draft.ofSegments, h, hrest]
  rfl

theorem Members.ofSegments {shape : Shape} : (members : Members shape) → (place : Nat) →
    Draft.ofSegments place members.segments = .ok (members.drafts place)
  | .last _ label v _, place => by
    rw [segments, drafts]
    exact ofSegments_cons (ofText_nameAndValue place label v) rfl
  | .more _ label v _ rest, place => by
    rw [segments, drafts]
    exact ofSegments_cons (ofText_nameAndValue place label v) (rest.ofSegments (place + 1))

theorem Members.all_segments {shape : Shape} : (members : Members shape) →
    (members.segments.all fun s => (Draft.member? s).isSome) = (shape == .object)
  | .last _ label v _ => by rw [segments, List.all_cons, isSome_member?, List.all_nil, Bool.and_true]
  | .more _ label v _ rest => by
    rw [segments, List.all_cons, isSome_member?, rest.all_segments, Bool.and_self]

theorem Members.shapeOf (members : Members shape) : Draft.shapeOf members.segments = shape := by
  rw [Draft.shapeOf, members.all_segments]
  cases shape <;> rfl

theorem Members.openBody (name : String) (members : Members shape) :
    Draft.openBody name ([','].intercalate members.parts) =
      .ok ⟨name, shape, (members.drafts 0).reverse, []⟩ := by
  rw [Draft.openBody, members.split]
  change (Draft.ofSegments 0 members.segments >>= _) = _
  rw [members.ofSegments 0]
  change Except.ok _ = _
  rw [members.shapeOf]

theorem openBody_gap (name : String) (gap : Gap) :
    Draft.openBody name gap.text = .ok ⟨name, .object, [], []⟩ := by
  have htrim : trim gap.text = [] := by
    rw [trim, ← List.append_nil gap.text, Text.trimLeft_append (isBlank_gap gap)]
    rfl
  have hsplit := Segments.split_intercalate (List.cons_ne_nil gap.text [])
    (by rw [List.forall_mem_singleton]; exact passes_gap gap 0)
  rw [List.intercalate_singleton, List.map_singleton, htrim] at hsplit
  rw [Draft.openBody, hsplit]
  rfl

/-! ## The work list -/

variable {waiting : List Draft} {decoded : List Variable} {outer : List OpenAggregate}

theorem expand_ready (name : String) (v : Variable) :
    OpenAggregate.expand ⟨name, shape, .ready v :: waiting, decoded⟩ outer =
      OpenAggregate.expand ⟨name, shape, waiting, v :: decoded⟩ outer :=
  OpenAggregate.expand.eq_def _ _

theorem expand_unopened (name : String) {inner : OpenAggregate} {inside : String} {body : List Char}
    (h : Draft.openBody inside body = .ok inner) :
    OpenAggregate.expand ⟨name, shape, .unopened inside body :: waiting, decoded⟩ outer =
      OpenAggregate.expand inner (⟨name, shape, waiting, decoded⟩ :: outer) := by
  refine (OpenAggregate.expand.eq_def _ _).trans ?_
  dsimp only
  split
  · next e he =>
    rw [h] at he
    cases he
  · next a ha =>
    rw [h] at ha
    cases ha
    rfl

/-- An aggregate without waiting members is a decoded member of the one around it. -/
theorem expand_close (name : String) (a : OpenAggregate) (members : List Variable) :
    OpenAggregate.expand ⟨name, shape, [], members⟩ (a :: outer) =
      OpenAggregate.expand (a.decode (.aggregate name shape members)) outer :=
  OpenAggregate.expand.eq_def _ _

theorem expand_last (name : String) (members : List Variable) :
    OpenAggregate.expand ⟨name, shape, [], members⟩ [] = .ok (.aggregate name shape members) :=
  OpenAggregate.expand.eq_def _ _

mutual

/-- A waiting member becomes the variable that it stands for, whatever else waits. -/
theorem Value.expand (name inside : String) : (v : Value) → (shape : Shape) → (waiting : List Draft) →
    (decoded : List Variable) → (outer : List OpenAggregate) →
    OpenAggregate.expand ⟨name, shape, v.draft inside :: waiting, decoded⟩ outer =
      OpenAggregate.expand ⟨name, shape, waiting, v.tree inside :: decoded⟩ outer
  | .integer .. => fun _ _ _ _ => expand_ready name _
  | .real _ => fun _ _ _ _ => expand_ready name _
  | .string _ => fun _ _ _ _ => expand_ready name _
  | .bytes _ => fun _ _ _ _ => expand_ready name _
  | .empty gap => fun shape waiting decoded outer => by
    rw [Value.tree]
    exact (expand_unopened name (openBody_gap inside gap)).trans (expand_close inside _ [])
  | .aggregate inner members => fun shape waiting decoded outer => by
    have hmembers := members.expand inside 0 [] [] (⟨name, shape, waiting, decoded⟩ :: outer)
    rw [List.append_nil, List.append_nil] at hmembers
    rw [Value.tree]
    exact (expand_unopened name (members.openBody inside)).trans (hmembers.trans (expand_close inside _ _))

/-- Members are decoded from the last to the first, and keep their order. -/
theorem Members.expand {shape : Shape} (name : String) : (members : Members shape) → (place : Nat) →
    (waiting : List Draft) → (decoded : List Variable) → (outer : List OpenAggregate) →
    OpenAggregate.expand ⟨name, shape, (members.drafts place).reverse ++ waiting, decoded⟩ outer =
      OpenAggregate.expand ⟨name, shape, waiting, members.trees place ++ decoded⟩ outer
  | .last _ label v _ => fun place waiting decoded outer => by
    rw [Members.drafts, Members.trees]
    exact v.expand name _ shape waiting decoded outer
  | .more _ label v _ rest => fun place waiting decoded outer => by
    rw [Members.drafts, Members.trees, List.reverse_cons, List.append_assoc,
      rest.expand name (place + 1)]
    exact v.expand name _ shape waiting _ outer

end

/-- A printed value is decoded to the variable that it stands for. -/
theorem decode_text (name : String) (v : Value) : Variable.decode name v.text = .ok (v.tree name) := by
  have hdraft : Draft.ofText name v.text = .ok (v.draft name) := v.ofText name ⟨[]⟩
  rw [Variable.decode, hdraft]
  cases v with
  | empty gap =>
    change (Draft.openBody name gap.text >>= _) = _
    rw [openBody_gap, Value.tree]
    exact expand_last name []
  | aggregate shape members =>
    change (Draft.openBody name ([','].intercalate members.parts) >>= _) = _
    have hmembers := members.expand name 0 [] [] []
    rw [List.append_nil, List.append_nil] at hmembers
    rw [members.openBody, Value.tree]
    exact hmembers.trans (expand_last name _)
  | _ => rfl

/-- An object whose one member is an array of one negative integer. -/
example :
    let array : Value := .aggregate .array
      (.last ⟨[]⟩ .place
        (.integer ⟨true, .decimal ⟨['2'], by decide, List.forall_mem_singleton.2 rfl⟩⟩ none) ⟨[.tab]⟩)
    let object : Value := .aggregate .object
      (.last ⟨[]⟩
        (.named ⟨['b'], by decide, List.forall_mem_singleton.2 rfl⟩ ⟨[.space]⟩ ⟨[.space]⟩) array ⟨[]⟩)
    object.text = "\x7bb = \x7b-2\t\x7d\x7d".toList ∧ object.tree "v" =
      .aggregate "v" .object [.aggregate "b" .array [.scalar "0" .integer "-2"]] :=
  ⟨rfl, rfl⟩

end DebugConsole.Printed
