/-!
# Searching in a text

`leftmost` finds the first place of a text at which a recogniser succeeds, and `containsRun` says
whether a text has another inside.
-/

set_option autoImplicit false

namespace MaterialInspection.Text

/-- The answer of a recogniser at the first place of a text at which it has one. -/
def leftmost {α : Type} (recognise : List Char → Option α) : List Char → Option α
  | [] => recognise []
  | c :: rest =>
    match recognise (c :: rest) with
    | some a => some a
    | none => leftmost recognise rest

/-- Whether a run of characters occurs in a text. -/
def containsRun (run : List Char) : List Char → Bool
  | [] => run.isEmpty
  | c :: rest => run.isPrefixOf (c :: rest) || containsRun run rest

/-- Whether a text occurs in another. -/
def contains (text run : String) : Bool := containsRun run.toList text.toList

/-- A recogniser that fails at every place of a text finds nothing. -/
theorem leftmost_eq_none_iff {α : Type} (recognise : List Char → Option α) (cs : List Char) :
    leftmost recognise cs = none ↔ ∀ before after, cs = before ++ after → recognise after = none := by
  induction cs with
  | nil =>
    simp only [leftmost]
    constructor
    · intro h before after he
      rw [eq_comm, List.append_eq_nil_iff] at he
      rw [he.2, h]
    · intro h
      exact h [] [] rfl
  | cons c rest ih =>
    simp only [leftmost]
    constructor
    · intro h before after he
      split at h
      · cases h
      · rename_i hn
        cases before with
        | nil => rw [List.nil_append] at he; rw [← he, hn]
        | cons b bs =>
          rw [List.cons_append, List.cons.injEq] at he
          exact ih.1 h bs after he.2
    · intro h
      rw [h [] (c :: rest) rfl]
      exact ih.2 fun before after he => h (c :: before) after (by rw [he, List.cons_append])

/-- A recogniser that succeeds at once gives its answer. -/
theorem leftmost_here {α : Type} {recognise : List Char → Option α} {cs : List Char} {a : α}
    (h : recognise cs = some a) : leftmost recognise cs = some a := by
  cases cs with
  | nil => exact h
  | cons c rest => simp only [leftmost, h]

/-- A part of a text in which nothing is recognised is passed over. -/
theorem leftmost_pass {α : Type} {recognise : List Char → Option α} {before after : List Char}
    (h : ∀ back, back <:+ before → back ≠ [] → recognise (back ++ after) = none) :
    leftmost recognise (before ++ after) = leftmost recognise after := by
  induction before with
  | nil => rfl
  | cons c cs ih =>
    have hc : recognise (c :: (cs ++ after)) = none :=
      h (c :: cs) List.suffix_rfl (List.cons_ne_nil c cs)
    rw [List.cons_append, leftmost, hc]
    exact ih fun back hback => h back (List.suffix_cons_iff.2 (.inr hback))

theorem leftmost_cons {α : Type} (recognise : List Char → Option α) (c : Char) (rest : List Char) :
    leftmost recognise (c :: rest) = (recognise (c :: rest)).or (leftmost recognise rest) := by
  rw [leftmost]
  cases recognise (c :: rest) <;> rfl

/-- What is found is what is recognised at the first place. -/
theorem leftmost_eq_some_iff {α : Type} (recognise : List Char → Option α) (cs : List Char) (a : α) :
    leftmost recognise cs = some a ↔ ∃ before after, cs = before ++ after ∧ recognise after = some a ∧
      ∀ back, back <:+ before → back ≠ [] → recognise (back ++ after) = none := by
  constructor
  · intro h
    induction cs with
    | nil => exact ⟨[], [], rfl, h, fun back hback hne => absurd (List.suffix_nil.1 hback) hne⟩
    | cons c rest ih =>
      cases hc : recognise (c :: rest) with
      | some b =>
        rw [leftmost_here hc] at h
        cases h
        exact ⟨[], c :: rest, rfl, hc, fun back hback hne => absurd (List.suffix_nil.1 hback) hne⟩
      | none =>
        rw [leftmost_cons, hc, Option.none_or] at h
        obtain ⟨before, after, rfl, hfound, hearlier⟩ := ih h
        refine ⟨c :: before, after, rfl, hfound, fun back hback hne => ?_⟩
        rcases List.suffix_cons_iff.1 hback with rfl | hback
        · exact hc
        · exact hearlier back hback hne
  · rintro ⟨before, after, rfl, hfound, hearlier⟩
    rw [leftmost_pass hearlier, leftmost_here hfound]

/-- Characters that nothing recognised starts with are passed over. -/
theorem leftmost_skip {α : Type} {recognise : List Char → Option α} {before : List Char}
    (h : ∀ c ∈ before, ∀ cs, recognise (c :: cs) = none) (rest : List Char) :
    leftmost recognise (before ++ rest) = leftmost recognise rest := by
  refine leftmost_pass fun back hback hne => ?_
  obtain ⟨c, cs, rfl⟩ := List.exists_cons_of_ne_nil hne
  exact h c (hback.subset List.mem_cons_self) (cs ++ rest)

end MaterialInspection.Text
