import DebugConsole.Proofs.Variable.Pieces

set_option autoImplicit false

/-!
# Structures that hold compressed character arrays

The commas between the pieces of a compressed array cut a structure as those between its members do, and
nothing tells a piece from a member without a name.  So a structure is decoded to its members exactly if
each of them is printed in one piece, and the note on how often a value repeats does not stand at the end of
its only member (`decode_struct_iff`).

An `Entry` is what stands between two commas: a piece, behind the name of its member if it is the first one
of it.  The entries are what is decoded (`build_braces`), to an object just if each of them has a name.
-/

namespace DebugConsole.Compressed

open Printed (Digits Glyph Name)
open Segments (Balanced IsPart joined joined_cons separated)
open Text (isBlank)

/-! ## What stands between two commas -/

/-- What stands between two commas of an aggregate: a piece, behind a name if it is the first one of a member
with a name. -/
structure Entry where
  label : Option Name
  text : List Char

namespace Entry

def part (e : Entry) : List Char := e.label.elim e.text (labelled · e.text)

/-- The name that the entry at a place is decoded under. -/
def name (place : Nat) (e : Entry) : String :=
  e.label.elim (toString place) fun name => String.ofList name.chars

/-- The names of the entries from the given place onwards. -/
def names (place : Nat) : List Entry → List String
  | [] => []
  | e :: es => e.name place :: names (place + 1) es

variable {e : Entry} {es : List Entry}

theorem isPart_part (h : IsPart e.text) : IsPart e.part := by
  obtain ⟨label, text⟩ := e
  cases label with
  | none => exact h
  | some name =>
    have hname := not_special_of_bare (Printed.bare_name name)
    obtain ⟨c, cs, hc⟩ := List.exists_cons_of_ne_nil name.nonempty
    refine ⟨?_, ?_, ?_, ?_⟩
    · exact (Balanced.of_not_special hname).append
        (.plain (by decide) (.plain (by decide) (.plain (by decide) h.balanced)))
    · exact List.append_ne_nil_of_left_ne_nil name.nonempty _
    · change ∀ d ∈ (name.chars ++ _).head?, isBlank d = false
      rw [hc]
      rintro d ⟨⟩
      exact (Printed.bare_name name c (by rw [hc]; exact List.mem_cons_self)).1
    · change ∀ d ∈ (name.chars ++ ([' ', '=', ' '] ++ text)).getLast?, isBlank d = false
      rw [← List.append_assoc, List.getLast?_append_of_ne_nil _ h.ne_nil]
      exact h.last

/-- An entry is read as a member with a name just if it has one. -/
theorem member?_part (h : Stands e.text) :
    Draft.member? e.part = e.label.map fun name => (String.ofList name.chars, ' ' :: e.text) := by
  obtain ⟨label, text⟩ := e
  cases label with
  | none => exact h.unnamed
  | some name => exact Printed.member?_named name ⟨[.space]⟩ (List.cons_ne_nil ' ' text)

theorem nameAndValue (h : Stands e.text) (place : Nat) :
    (Draft.nameAndValue place e.part).1 = e.name place ∧
      Text.trim (Draft.nameAndValue place e.part).2 = e.text := by
  have hspace : ∀ c ∈ [' '], isBlank c = true := List.forall_mem_singleton.2 rfl
  rw [Draft.nameAndValue, member?_part h]
  obtain ⟨label, text⟩ := e
  cases label with
  | none => exact ⟨rfl, h.isPart.trim_self⟩
  | some name => exact ⟨rfl, h.isPart.trim hspace⟩

end Entry

/-! ## Decoding between braces -/

variable {es : List Entry}

/-- The entries of an aggregate are decoded under their names. -/
theorem exists_buildAll (h : ∀ e ∈ es, Stands e.text) (place : Nat) :
    ∃ vs, Variable.buildAll place (es.map Entry.part) = .ok vs ∧
      vs.map Variable.name = Entry.names place es := by
  induction es generalizing place with
  | nil =>
    refine ⟨[], ?_, rfl⟩
    rw [List.map_nil, Variable.buildAll.eq_def]
  | cons e es ih =>
    obtain ⟨he, hes⟩ := List.forall_mem_cons.1 h
    obtain ⟨hname, hvalue⟩ := Entry.nameAndValue he place
    obtain ⟨v, hv⟩ := he.decodes (e.name place)
    obtain ⟨vs, hvs, hnames⟩ := ih hes (place + 1)
    have hbuild : Variable.build (Draft.nameAndValue place e.part).1 (Draft.nameAndValue place e.part).2 =
        .ok v := by
      rw [hname, ← hv]
      exact Variable.build_congr _ (hvalue.trans he.isPart.trim_self.symm)
    refine ⟨v :: vs, ?_, ?_⟩
    · rw [List.map_cons, Variable.buildAll_cons, hbuild, hvs]
      rfl
    · rw [List.map_cons, Variable.name_of_build hv, hnames]
      rfl

theorem shapeOf_parts (h : ∀ e ∈ es, Stands e.text) :
    Draft.shapeOf (es.map Entry.part) = if es.all (·.label.isSome) then .object else .array := by
  have hall : ((es.map Entry.part).all fun s => (Draft.member? s).isSome) = es.all (·.label.isSome) := by
    rw [Bool.eq_iff_iff, List.all_eq_true, List.forall_mem_map, List.all_eq_true]
    refine forall₂_congr fun e he => ?_
    rw [Entry.member?_part (h e he), Option.isSome_map]
  rw [Draft.shapeOf, hall]

/-- Braces are kept as they are printed if they hold one segment that repeats, and are opened otherwise. -/
theorem classify_of_split {body : List Char} {segments : List (List Char)}
    (hsplit : Segments.split body = .ok segments) :
    Literal.classify ('{' :: (body ++ ['}'])) =
      .ok (if Literal.isRepeatBody body && segments.length == 1 then
        .scalar .raw ('{' :: (body ++ ['}'])) else .braces body) := by
  have hlast : ∀ c ∈ ('{' :: (body ++ ['}'])).getLast?, c ≠ '>' := by
    rw [← List.cons_append, List.getLast?_concat]
    rintro c ⟨⟩
    decide
  have hinteger : Literal.integer? ('{' :: (body ++ ['}'])) = none :=
    Printed.integer?_eq_none_of_head rfl (by decide)
  have hfloat : Literal.isFloat ('{' :: (body ++ ['}'])) = false :=
    Printed.isFloat_eq_false rfl (by decide) (by decide) (by decide)
  have hbraces : Literal.braces? ('{' :: (body ++ ['}'])) = some body := Text.before?_eq_some_iff.2 rfl
  have hrepeated : Literal.isRepeatedAggregate ('{' :: (body ++ ['}'])) =
      .ok (Literal.isRepeatBody body && segments.length == 1) := by
    rw [Literal.isRepeatedAggregate, hbraces]
    dsimp only
    rw [hsplit]
    cases Literal.isRepeatBody body <;> rfl
  rw [Literal.classify, hinteger, hfloat, Printed.isRepeat_eq_false hlast, hrepeated, hbraces]
  cases Literal.isRepeatBody body && segments.length == 1 <;> rfl

/-- What the entries of an aggregate are decoded to. -/
theorem build_braces (name : String) (h : ∀ e ∈ es, Stands e.text) :
    ∃ vs, vs.map Variable.name = Entry.names 0 es ∧
      Variable.build name ('{' :: (joined (es.map Entry.part) ++ ['}'])) =
        .ok (if Literal.isRepeatBody (joined (es.map Entry.part)) && es.length == 1 then
          .scalar name .raw (String.ofList ('{' :: (joined (es.map Entry.part) ++ ['}'])))
        else .aggregate name (if es.all (·.label.isSome) then .object else .array) vs) := by
  have hparts : ∀ p ∈ es.map Entry.part, IsPart p := by
    rw [List.forall_mem_map]
    exact fun e he => Entry.isPart_part (h e he).isPart
  have hsplit := Segments.split_joined hparts
  have hbalanced : Balanced false ('{' :: (joined (es.map Entry.part) ++ ['}'])) :=
    .braced (.joined fun p hp => (hparts p hp).balanced.inner)
  have htrim := (IsPart.of_ends hbalanced (by decide) (by decide)).trim_self
  have hclassify := classify_of_split hsplit
  obtain ⟨vs, hvs, hnames⟩ := exists_buildAll h 0
  refine ⟨vs, hnames, ?_⟩
  rw [List.length_map] at hclassify
  rw [Variable.build_eq, htrim, hclassify]
  cases Literal.isRepeatBody (joined (es.map Entry.part)) && es.length == 1 with
  | true => rfl
  | false =>
    simp only [Bool.false_eq_true, if_false]
    rw [hsplit, ← shapeOf_parts h]
    change (Variable.buildAll 0 (es.map Entry.part)).map _ = _
    rw [hvs]
    rfl

/-- An aggregate of entries is a piece. -/
theorem stands_braces (h : ∀ e ∈ es, Stands e.text) :
    Stands ('{' :: (joined (es.map Entry.part) ++ ['}'])) where
  isPart := by
    refine .of_ends (.braced (.joined fun p hp => ?_)) (by decide) (by decide)
    obtain ⟨e, he, rfl⟩ := List.mem_map.1 hp
    exact (Entry.isPart_part (h e he).isPart).balanced.inner
  unnamed := member?_cons_eq_none (by decide) (by decide) _
  decodes := by
    intro name
    obtain ⟨vs, -, hbuild⟩ := build_braces name h
    exact ⟨_, hbuild⟩

/-! ## The entries of a value -/

/-- The entries that a member is printed as; its name stands before the first one. -/
def Value.entries (label : Option Name) : Value → List Entry
  | .pieces first more => ⟨label, first.text⟩ :: more.map fun p => ⟨none, p.text⟩
  | .aggregate members => [⟨label, '{' :: (joined members.texts ++ ['}'])⟩]

def Members.entries : Members → List Entry
  | .nil => []
  | .named name value rest => value.entries (some name) ++ rest.entries
  | .placed value rest => value.entries none ++ rest.entries

/-- A member's entries are what is printed for it.  A comma is put before each of them here, as they are
joined to what stands before them. -/
theorem Value.flatMap_entries (label : Option Name) (value : Value) :
    ((value.entries label).map Entry.part).flatMap separated =
      separated (Entry.part ⟨label, value.text⟩) := by
  cases value with
  | aggregate members =>
    rw [entries, Value.text]
    simp
  | pieces first more =>
    have hmore : (more.map fun p => (⟨none, p.text⟩ : Entry)).map Entry.part = more.map Piece.text := by
      rw [List.map_map]
      rfl
    rw [entries, Value.text, List.map_cons, hmore, List.map_cons, List.flatMap_cons, joined_cons]
    cases label with
    | none => rfl
    | some name => simp [Entry.part, labelled, separated]

theorem Members.flatMap_entries : (members : Members) →
    (members.entries.map Entry.part).flatMap separated = members.texts.flatMap separated
  | .nil => rfl
  | .named name value rest => by
    rw [entries, texts, List.map_append, List.flatMap_append, value.flatMap_entries, rest.flatMap_entries,
      List.flatMap_cons]
    rfl
  | .placed value rest => by
    rw [entries, texts, List.map_append, List.flatMap_append, value.flatMap_entries, rest.flatMap_entries,
      List.flatMap_cons]
    rfl

theorem Members.joined_entries (members : Members) :
    joined (members.entries.map Entry.part) = joined members.texts := by
  rw [Segments.joined_eq_drop, Segments.joined_eq_drop, members.flatMap_entries]

mutual

/-- Every entry of a member is a piece. -/
theorem Value.stands : (value : Value) → (label : Option Name) →
    ∀ e ∈ value.entries label, Stands e.text
  | .pieces first more, label => by
    rw [Value.entries, List.forall_mem_cons, List.forall_mem_map]
    exact ⟨first.stands, fun p _ => p.stands⟩
  | .aggregate members, label => by
    rw [Value.entries, List.forall_mem_singleton, ← members.joined_entries]
    exact stands_braces members.stands

theorem Members.stands : (members : Members) → ∀ e ∈ members.entries, Stands e.text
  | .nil => by
    rw [Members.entries]
    exact List.forall_mem_nil _
  | .named name value rest => by
    rw [Members.entries, List.forall_mem_append]
    exact ⟨value.stands (some name), rest.stands⟩
  | .placed value rest => by
    rw [Members.entries, List.forall_mem_append]
    exact ⟨value.stands none, rest.stands⟩

end

/-! ## Structures -/

/-- A member ends in the note on how often it repeats just if its value does. -/
theorem isRepeatBody_labelled (name : Name) {text : List Char} (h : IsPart text) :
    Literal.isRepeatBody (labelled name text) = true ↔ EndsRepeated text := by
  have hfront : labelled name text = (name.chars ++ [' ', '=']) ++ ' ' :: text := by simp [labelled]
  have hline : Text.before? (labelled name text) ['\n'] = none := by
    rw [Option.eq_none_iff_forall_ne_some]
    intro start hstart
    rw [Text.before?_eq_some_iff] at hstart
    have hend : ∀ c ∈ (labelled name text).getLast?, isBlank c = false :=
      (Entry.isPart_part (e := ⟨some name, text⟩) h).last
    cases hend '\n' (by rw [hstart, List.getLast?_concat]; rfl)
  rw [Literal.isRepeatBody, hline, Option.any_none, Bool.or_false, isRepeat_iff]
  constructor
  · rintro ⟨value, count, -, htext⟩
    rw [hfront] at htext
    obtain ⟨middle, hvalue, hnote⟩ | ⟨middle, hvalue, hnote⟩ := List.append_eq_append_iff.1 htext
    · exact ⟨middle, count, hnote⟩
    · cases middle with
      | nil => exact ⟨[], count, by simpa using hnote.symm⟩
      | cons c middle =>
        -- a longer note would hold the equals sign
        have hequals : (value ++ c :: middle).getLast? = some '=' := by
          rw [← hvalue, List.getLast?_append]
          rfl
        rw [List.getLast?_append_of_ne_nil _ (List.cons_ne_nil c middle)] at hequals
        refine absurd ?_ (equals_notMem_note count)
        rw [hnote]
        exact List.mem_append_left _ (List.mem_of_getLast? hequals)
  · rintro ⟨start, count, htext⟩
    refine ⟨name.chars ++ [' ', '='] ++ start, count, by simp, ?_⟩
    rw [hfront, htext]
    simp only [List.append_assoc]

/-- A member is printed in one piece just if it is one entry, which has its name. -/
theorem Value.all_entries (name : Name) (value : Value) :
    (value.entries (some name)).all (·.label.isSome) = value.isWhole := by
  cases value with
  | aggregate members => rfl
  | pieces first more =>
    cases more with
    | nil => rfl
    | cons p more => simp [entries, isWhole]

theorem Value.entries_of_isWhole {value : Value} (h : value.isWhole = true) (label : Option Name) :
    value.entries label = [⟨label, value.text⟩] := by
  cases value with
  | aggregate members => rw [entries, text]
  | pieces first more =>
    rw [isWhole, List.isEmpty_iff] at h
    subst h
    rw [entries, text, List.map_singleton, joined_cons, List.flatMap_nil, List.append_nil]
    rfl

theorem Members.all_entries (members : List (Name × Value)) :
    (Members.ofList members).entries.all (·.label.isSome) = members.all (·.2.isWhole) := by
  induction members with
  | nil => rfl
  | cons member members ih =>
    rw [ofList, entries, List.all_append, member.2.all_entries, ih, List.all_cons]

theorem Members.entries_of_isWhole {members : List (Name × Value)}
    (h : ∀ m ∈ members, m.2.isWhole = true) :
    (Members.ofList members).entries = members.map fun m => ⟨some m.1, m.2.text⟩ := by
  induction members with
  | nil => rfl
  | cons member members ih =>
    obtain ⟨hmember, hmembers⟩ := List.forall_mem_cons.1 h
    rw [ofList, entries, Value.entries_of_isWhole hmember, ih hmembers, List.map_cons]
    rfl

theorem names_labelled (members : List (Name × Value)) (place : Nat) :
    Entry.names place (members.map fun m => ⟨some m.1, m.2.text⟩) =
      members.map fun m => String.ofList m.1.chars := by
  induction members generalizing place with
  | nil => rfl
  | cons member members ih =>
    rw [List.map_cons, Entry.names, ih, List.map_cons]
    rfl

/-- Members printed in one piece each are kept as they are printed just if there is one, which ends in the
note on how often it repeats. -/
theorem isRepeatBody_struct {members : List (Name × Value)} (h : ∀ m ∈ members, m.2.isWhole = true) :
    (Literal.isRepeatBody (joined (Members.ofList members).texts) &&
      (Members.ofList members).entries.length == 1) = true ↔
        ∃ m, members = [m] ∧ EndsRepeated m.2.text := by
  rw [Members.entries_of_isWhole h, List.length_map]
  cases members with
  | nil => simp
  | cons member members =>
    cases members with
    | cons other members => simp
    | nil =>
      have hmember := h member List.mem_cons_self
      have hpart : IsPart member.2.text := by
        have hstands := member.2.stands none
        rw [Value.entries_of_isWhole hmember, List.forall_mem_singleton] at hstands
        exact hstands.isPart
      have hbody : joined (Members.ofList [member]).texts = labelled member.1 member.2.text := by
        rw [Members.ofList, Members.texts, joined_cons]
        exact List.append_nil _
      rw [hbody, List.length_singleton, beq_self_eq_true, Bool.and_true, isRepeatBody_labelled _ hpart]
      simp

/-- A structure is decoded in any case.  It is decoded to an object of its members, in order and under their
names, just if each of them is printed in one piece, and it is not a single one that ends in the note on how
often it repeats. -/
theorem decode_struct_iff (name : String) (members : List (Name × Value)) :
    ∃ v, Variable.decode name (Value.aggregate (.ofList members)).text = .ok v ∧
      ((∃ vs, v = .aggregate name .object vs ∧
          vs.map Variable.name = members.map fun m => String.ofList m.1.chars) ↔
        (∀ m ∈ members, m.2.isWhole = true) ∧ ¬ ∃ m, members = [m] ∧ EndsRepeated m.2.text) := by
  obtain ⟨vs, hnames, hbuild⟩ := build_braces name (Members.ofList members).stands
  rw [Members.joined_entries, Members.all_entries] at hbuild
  refine ⟨_, Variable.decode_of_build hbuild, ?_⟩
  by_cases hwhole : ∀ m ∈ members, m.2.isWhole = true
  · have hkept := isRepeatBody_struct hwhole
    rw [Members.entries_of_isWhole hwhole, names_labelled] at hnames
    rw [List.all_eq_true.2 hwhole, if_pos rfl]
    split
    · next hraw =>
      refine iff_of_false ?_ fun h => h.2 (hkept.1 hraw)
      rintro ⟨_, hv, -⟩
      cases hv
    · next hobject =>
      exact iff_of_true ⟨vs, rfl, hnames⟩ ⟨hwhole, fun hsole => hobject (hkept.2 hsole)⟩
  · have hall : ¬ members.all (·.2.isWhole) = true := by rwa [List.all_eq_true]
    refine iff_of_false ?_ fun h => hwhole h.1
    rw [if_neg hall]
    rintro ⟨_, hv, -⟩
    split at hv <;> cases hv

theorem decode_of_openBody {name inside : String} {text body : List Char} {a : OpenAggregate}
    (hdraft : Draft.ofText name text = .ok (.unopened inside body)) (h : Draft.openBody inside body = .ok a) :
    Variable.decode name text = a.expand [] := by
  rw [Variable.decode, hdraft]
  change (Draft.openBody inside body >>= _) = _
  rw [h]
  rfl

/-- An array of two pieces and a number. -/
example :
    let count : Digits := ⟨['1', '2'], by decide, List.all_eq_true.1 (by decide)⟩
    let zero : Glyph := ⟨[.escape '0' (by decide), .plain '0' (by decide), .plain '0' (by decide)]⟩
    let array : Value := .pieces (.quoted ['a'] (.plain (by decide) .nil)) [.word (.repeated zero count)]
    let number : Value := .pieces (.word (.bare ['-', '1'] (by decide) (by decide))) []
    let members := [(⟨['b'], by decide, List.forall_mem_singleton.2 rfl⟩, array),
      (⟨['x'], by decide, List.forall_mem_singleton.2 rfl⟩, number)]
    (Value.aggregate (.ofList members)).text =
      "\x7bb = \"a\", '\\000' <repeats 12 times>, x = -1\x7d".toList ∧ array.isWhole = false :=
  ⟨rfl, rfl⟩

/-- The pieces of a compressed array are taken for members without names, and a structure whose only member
repeats is taken for an array that does. -/
theorem compressed_array_reshapes :
    Variable.decode "v" "\x7bbuf = \"abc\", '\\000' <repeats 12 times>, x = 1\x7d".toList =
      .ok (.aggregate "v" .array [.scalar "buf" .string "abc",
        .scalar "1" .raw "'\\000' <repeats 12 times>", .scalar "x" .integer "1"]) ∧
    Variable.decode "v" "\x7bbuf = '\\000' <repeats 12 times>\x7d".toList =
      .ok (.scalar "v" .raw "\x7bbuf = '\\000' <repeats 12 times>\x7d") := by
  constructor
  · have hdraft : Draft.ofText "v" "\x7bbuf = \"abc\", '\\000' <repeats 12 times>, x = 1\x7d".toList =
        .ok (.unopened "v" "buf = \"abc\", '\\000' <repeats 12 times>, x = 1".toList) := rfl
    have hopen : Draft.openBody "v" "buf = \"abc\", '\\000' <repeats 12 times>, x = 1".toList =
        .ok ⟨"v", .array, [.ready (.scalar "x" .integer "1"),
          .ready (.scalar "1" .raw "'\\000' <repeats 12 times>"), .ready (.scalar "buf" .string "abc")], []⟩ :=
      rfl
    rw [decode_of_openBody hdraft hopen, Printed.expand_ready, Printed.expand_ready, Printed.expand_ready,
      Printed.expand_last]
  · rfl

end DebugConsole.Compressed
