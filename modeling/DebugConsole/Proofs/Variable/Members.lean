import DebugConsole.Proofs.Variable.Compression

set_option autoImplicit false

/-!
# The members of an aggregate

Each segment between braces becomes a member, under the name that it is printed with or by its place.  There
is one exception: a single segment that ends in the note on how often a value repeats is kept with its
braces as it is printed (`IsSoleRepeat`).  The exception is made for arrays and does not ask whether the
segment has a name, so a structure loses its only member by it, and a call its only parameter.
`members_of_segments_iff` says that there is no other.
-/

namespace DebugConsole

theorem Malformed.toOption_eq_some_iff {α : Type} {x : Except Malformed α} {a : α} :
    x.toOption = some a ↔ x = .ok a := by
  cases x <;> simp [Except.toOption]

namespace Variable

open Draft (member? nameAndValue)
open Text (allBlank isBlank)

variable {body : List Char} {place : Nat} {segments : List (List Char)} {vs : List Variable}

/-- The names that the segments from the given place onwards are decoded under. -/
def memberNames (place : Nat) : List (List Char) → List String
  | [] => []
  | segment :: rest => (nameAndValue place segment).1 :: memberNames (place + 1) rest

/-- Is there one segment only, and does the text end in the note on how often a value repeats? -/
def IsSoleRepeat (body : List Char) (segments : List (List Char)) : Prop :=
  segments.length = 1 ∧ Literal.isRepeatBody body = true

instance (body : List Char) (segments : List (List Char)) : Decidable (IsSoleRepeat body segments) :=
  inferInstanceAs (Decidable (_ ∧ _))

theorem length_memberNames (place : Nat) (segments : List (List Char)) :
    (memberNames place segments).length = segments.length := by
  induction segments generalizing place with
  | nil => rfl
  | cons segment rest ih => rw [memberNames, List.length_cons, ih, List.length_cons]

theorem names_of_buildAll (h : buildAll place segments = .ok vs) :
    vs.map name = memberNames place segments := by
  induction segments generalizing place vs with
  | nil =>
    rw [buildAll.eq_def] at h
    cases h
    rfl
  | cons segment rest ih =>
    rw [buildAll_cons] at h
    obtain ⟨v, hv, h⟩ := Malformed.exists_of_bind h
    obtain ⟨ws, hws, rfl⟩ := Malformed.exists_of_map h
    rw [List.map_cons, name_of_build hv, ih hws, memberNames]

/-! ## Between braces -/

theorem trim_braces (body : List Char) : Text.trim ('{' :: (body ++ ['}'])) = '{' :: (body ++ ['}']) := by
  have hhead : ∀ c ∈ ('{' :: (body ++ ['}'])).head?, isBlank c = false := by
    rintro c ⟨⟩
    decide
  have hlast : ∀ c ∈ ('{' :: (body ++ ['}'])).getLast?, isBlank c = false := by
    rw [← List.cons_append, List.getLast?_concat]
    rintro c ⟨⟩
    decide
  simpa using Text.trim_append (List.forall_mem_nil _) (List.forall_mem_nil _) hhead hlast

/-- What stands between braces is kept as it is printed, or decoded segment by segment. -/
theorem build_of_segments (name : String) (hsplit : Segments.split body = .ok segments) :
    build name ('{' :: (body ++ ['}'])) =
      if IsSoleRepeat body segments then
        .ok (.scalar name .raw (String.ofList ('{' :: (body ++ ['}']))))
      else (buildAll 0 segments).map (.aggregate name (Draft.shapeOf segments)) := by
  rw [build_eq, trim_braces, Compressed.classify_of_split hsplit]
  by_cases hsole : IsSoleRepeat body segments
  · rw [if_pos hsole, hsole.1, hsole.2]
    rfl
  · have hopened : (Literal.isRepeatBody body && segments.length == 1) = false := by
      rw [← Bool.not_eq_true, Bool.and_eq_true, beq_iff_eq, and_comm]
      exact hsole
    rw [if_neg hsole, hopened]
    simp only [Bool.false_eq_true, if_false]
    rw [hsplit]
    rfl

/-- Blanks are no segment. -/
theorem split_of_allBlank (h : allBlank body = true) : Segments.split body = .ok [] := by
  have hblank : ∀ c ∈ body, isBlank c = true := List.all_eq_true.1 h
  have hpasses : Segments.Passes 0 body := Segments.passes_of_not_special 0 fun c hc =>
    Segments.not_special_of_isBlank (hblank c hc)
  have htrim : Text.trim body = [] := by
    have hlead := Text.trimLeft_append (s := []) hblank
    rw [List.append_nil, Text.trimLeft_nil] at hlead
    rw [Text.trim, hlead, Text.trimRight_nil]
  have hsplit := Segments.split_intercalate (List.cons_ne_nil body []) (List.forall_mem_singleton.2 hpasses)
  rwa [List.intercalate_singleton, List.map_singleton, htrim] at hsplit

/-- The parameters of a call are the members of what stands between its parentheses, put between braces. -/
theorem decodeParameters_eq (params : List Char) :
    decodeParameters params = (decode "params" ('{' :: (params ++ ['}']))).toOption.map members := by
  cases hblank : allBlank params with
  | true =>
    have hbuild := build_of_segments "params" (split_of_allBlank hblank)
    have hopened : ¬ IsSoleRepeat params [] := fun hsole => absurd hsole.1 (by decide)
    rw [if_neg hopened, buildAll.eq_def] at hbuild
    rw [decodeParameters, if_pos hblank, decode_of_build hbuild]
    rfl
  | false =>
    rw [decodeParameters, hblank, if_neg Bool.false_ne_true, List.cons_append]
    cases decode "params" ('{' :: (params ++ ['}'])) <;> rfl

/-! ## No member is lost -/

theorem names_of_decode_iff (name : String) (hsplit : Segments.split body = .ok segments) :
    (∀ v, (decode name ('{' :: (body ++ ['}']))).toOption = some v →
        v.members.map Variable.name = memberNames 0 segments) ↔ ¬ IsSoleRepeat body segments := by
  rw [toOption_decode, build_of_segments name hsplit]
  by_cases hsole : IsSoleRepeat body segments
  · rw [if_pos hsole]
    refine iff_of_false (fun hnames => ?_) (not_not_intro hsole)
    have hlength := congrArg List.length (hnames _ rfl)
    rw [length_memberNames, hsole.1] at hlength
    cases hlength
  · rw [if_neg hsole]
    refine iff_of_true (fun v hv => ?_) hsole
    cases hall : buildAll 0 segments with
    | error m =>
      rw [hall] at hv
      cases hv
    | ok vs =>
      rw [hall] at hv
      cases hv
      exact names_of_buildAll hall

/-- Each segment between braces becomes a member, under its own name or by its place, unless it is the only
one and ends in the note on how often a value repeats.  The same is true of the parameters of a call. -/
theorem members_of_segments_iff (hsplit : Segments.split body = .ok segments) :
    (∀ name, (∀ v, decode name ('{' :: (body ++ ['}'])) = .ok v →
        v.members.map Variable.name = memberNames 0 segments) ↔ ¬ IsSoleRepeat body segments) ∧
      ((∀ vs, decodeParameters body = some vs → vs.map Variable.name = memberNames 0 segments) ↔
        ¬ IsSoleRepeat body segments) := by
  refine ⟨fun name => ?_, ?_⟩
  · simp only [← names_of_decode_iff name hsplit, Malformed.toOption_eq_some_iff]
  · rw [← names_of_decode_iff "params" hsplit, decodeParameters_eq]
    simp only [Option.map_eq_some_iff, forall_exists_index, and_imp, forall_apply_eq_imp_iff₂]

/-- A member with a name and one without, which repeats. -/
theorem members_of_segments_mixed :
    let body := "a = 1, 0 <repeats 3 times>".toList
    let segments := ["a = 1".toList, "0 <repeats 3 times>".toList]
    Segments.split body = .ok segments ∧ memberNames 0 segments = ["a", "1"] ∧
      ¬ IsSoleRepeat body segments ∧
      (∀ name, (∀ v, decode name ('{' :: (body ++ ['}'])) = .ok v →
        v.members.map Variable.name = memberNames 0 segments) ↔ ¬ IsSoleRepeat body segments) ∧
      ((∀ vs, decodeParameters body = some vs → vs.map Variable.name = memberNames 0 segments) ↔
        ¬ IsSoleRepeat body segments) := by
  intro body segments
  have hsplit : Segments.split body = .ok segments := rfl
  exact ⟨hsplit, rfl, by decide, members_of_segments_iff hsplit⟩

/-- The only member of a structure is lost if its value repeats, and so is the only parameter of a call. -/
theorem sole_repeat_swallowed :
    let body := "buf=0 <repeats 12 times>".toList
    Segments.split body = .ok [body] ∧ memberNames 0 [body] = ["buf"] ∧
      decode "v" ('{' :: (body ++ ['}'])) = .ok (.scalar "v" .raw "\x7bbuf=0 <repeats 12 times>\x7d") ∧
      decodeParameters body = some [] :=
  ⟨rfl, rfl, rfl, rfl⟩

end Variable

end DebugConsole
