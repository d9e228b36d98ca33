import MaterialInspection.Proofs.Number.Fixed
import MaterialInspection.Proofs.Number.WholeText
import MaterialInspection.Sample.Rule

/-!
# Rules that are read

A rule is read from JSON with a default for each member that is missing or no number, and its numbers
are kept within limits, so whatever it is read from, a sampler can work with what it holds.

* `Rule.Sound` — a text that is not empty, finite numbers, and at most ten decimals.
* `Rule.sound_of_read?` — every rule that is read is sound.
-/

set_option autoImplicit false

namespace MaterialInspection

open Number Binary64

seal unitsPerOne unitsLimit twoTo tenTo

/-! ## Texts of numbers -/

theorem Shortest.Decimal.plainChars_ne_nil (d : Decimal) : d.plainChars ≠ [] := by
  have hdigits : Nat.toDigits 10 d.digits ≠ [] := Nat.toDigits_ne_nil
  unfold plainChars
  dsimp only
  split
  · exact List.append_ne_nil_of_left_ne_nil hdigits _
  · split
    · exact List.append_ne_nil_of_right_ne_nil _ (List.cons_ne_nil _ _)
    · exact List.cons_ne_nil _ _

theorem Shortest.Decimal.scientificChars_ne_nil (d : Decimal) : d.scientificChars ≠ [] :=
  List.append_ne_nil_of_right_ne_nil _ (List.cons_ne_nil _ _)

theorem Binary64.jsonText_ne_nil (x : Binary64) : x.jsonText.toList ≠ [] := by
  cases x with
  | nan => decide
  | infinite negative =>
    show "null".toList ≠ []
    decide
  | finite negative units hu =>
    unfold jsonText
    dsimp only
    rw [String.toList_ofList]
    cases negative with
    | true => exact List.cons_ne_nil _ _
    | false =>
      rw [if_neg Bool.false_ne_true]
      split
      · exact List.cons_ne_nil _ _
      · split
        · split
          · exact List.append_ne_nil_of_right_ne_nil _ (List.cons_ne_nil _ _)
          · exact Shortest.Decimal.plainChars_ne_nil _
        · exact Shortest.Decimal.scientificChars_ne_nil _

theorem Json.Number.text_ne_empty (n : Json.Number) : n.text ≠ "" := by
  have hnil : n.text.toList ≠ [] := by
    cases n with
    | whole i => exact toString_int_ne_nil i
    | double x => exact x.jsonText_ne_nil
  intro h
  rw [h] at hnil
  exact hnil rfl

namespace Sample.Rule

/-! ## What a rule holds -/

/-- What a rule that is read holds: a text that is not empty, finite numbers, and at most ten
decimals. -/
def Sound : Rule → Prop
  | .fixed value => value ≠ ""
  | .passRate percent => percent.isFinite = true
  | .offset base low high places =>
    base.isFinite = true ∧ low.isFinite = true ∧ high.isFinite = true ∧ places ≤ maxPlaces

variable {rule : Json.Value} {standard : String} {r : Rule}

theorem fixedText_ne_empty (value : Option Json.Value) : fixedText value ≠ "" := by
  unfold fixedText
  split
  · rename_i s
    split
    · decide
    · rename_i h
      exact fun he => h (by rw [he]; rfl)
  · exact Json.Number.text_ne_empty _
  · decide

theorem finite_of_memberDouble? {key : String} {x : Binary64} (h : memberDouble? rule key = some x) :
    x.isFinite = true := by
  obtain ⟨v, _, hv⟩ := Option.bind_eq_some_iff.1 h
  unfold double? at hv
  split at hv
  · exact (Option.filter_eq_some_iff.1 hv).2
  · exact finite_of_leadingNumber? hv
  · cases hv

theorem finite_getD {o : Option Binary64} {default : Binary64}
    (h : ∀ x, o = some x → x.isFinite = true) (hd : default.isFinite = true) :
    (o.getD default).isFinite = true := by
  cases o with
  | none => exact hd
  | some x => exact h x rfl

theorem places?_le {x : Binary64} {n : Nat} (h : places? x = some n) : n ≤ maxPlaces := by
  unfold places? at h
  split at h
  · cases h
  · obtain ⟨i, _, rfl⟩ := Option.map_eq_some_iff.1 h
    exact Nat.min_le_right _ _

theorem sound_of_ofJson? (h : ofJson? standard rule = some r) : r.Sound := by
  have hzero : (0 : Binary64).isFinite = true := at_zero.finite
  have hhundred : (100 : Binary64).isFinite = true := at_hundred.finite
  have hmember : ∀ key x, memberDouble? rule key = some x → x.isFinite = true :=
    fun _ _ => finite_of_memberDouble?
  unfold ofJson? at h
  split at h
  · dsimp only at h
    split at h
    · cases h
      exact fixedText_ne_empty _
    · split at h
      · cases h
        exact finite_clamp (finite_getD (hmember _) hhundred) hzero hhundred
      · split at h
        · cases h
          refine ⟨finite_getD ?_ hzero, finite_getD (hmember _) hzero, finite_getD (hmember _) hzero, ?_⟩
          · intro x hx
            rcases Option.or_eq_some_iff.1 hx with hx | ⟨_, hx⟩
            · exact hmember _ x hx
            · exact finite_of_leadingNumber? hx
          · cases hplaces : (memberDouble? rule "precision").bind places? with
            | none => decide
            | some n =>
              obtain ⟨x, _, hx⟩ := Option.bind_eq_some_iff.1 hplaces
              exact places?_le hx
        · cases h
  · cases h

theorem sound_of_read? {text : Option String} (h : read? text standard = some r) : r.Sound := by
  unfold read? at h
  split at h
  · cases h
  · obtain ⟨v, _, hv⟩ := Option.bind_eq_some_iff.1 h
    exact sound_of_ofJson? hv

end Sample.Rule

end MaterialInspection
