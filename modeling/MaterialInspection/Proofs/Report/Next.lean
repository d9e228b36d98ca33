import MaterialInspection.Proofs.Report.Search

/-!
# The number after a text

The next number of a stem is made from any text, or from none, and it is a number of the stem whatever
the text: the last three characters of the text count if they are digits, and count for nothing if they
are not.  Only after 999 it has a digit too many.

* `nextSequence_cases` — 999 is the one ending that is followed by 1000.
* `wellFormed_of_stem` — the well-formed numbers of a stem are the stem with the sequences up to 999.
* `next_follows` — the next number after any text, and after a number of the stem.
-/

set_option autoImplicit false

namespace MaterialInspection

open Number
open Sheet.Separated (bytes)

namespace ReportNumber

/-! ## The next sequence -/

/-- The last three characters of the greatest number so far are nines, blanks around it aside. -/
def UsedUp (greatest : Option String) : Prop :=
  ['9', '9', '9'] <:+ Text.trimChars (greatest.getD "").toList

/-- **After 999 comes 1000, and after all else a sequence from 1 to 999.** -/
theorem nextSequence_cases (greatest : Option String) :
    UsedUp greatest ∧ nextSequence greatest = 1000 ∨
      ¬UsedUp greatest ∧ 1 ≤ nextSequence greatest ∧ nextSequence greatest ≤ 999 := by
  unfold UsedUp nextSequence
  dsimp only
  generalize Text.trimChars (greatest.getD "").toList = cs
  rw [List.suffix_iff_eq_drop, List.length_cons, List.length_cons, List.length_cons, List.length_nil]
  generalize hending : cs.drop (cs.length - (0 + 1 + 1 + 1)) = ending
  split
  · rename_i hunread
    right
    refine ⟨?_, by decide, by decide⟩
    rintro rfl
    have hlong : 3 ≤ cs.length := by
      have := congrArg List.length hending
      rw [List.length_drop] at this
      simp only [List.length_cons, List.length_nil] at this
      omega
    simp [Nat.not_lt.2 hlong] at hunread
  · rename_i hread
    simp only [Bool.or_eq_true, decide_eq_true_eq, Bool.not_eq_true', not_or, Nat.not_lt,
      Bool.not_eq_false, List.all_eq_true] at hread
    obtain ⟨hlong, hdigits⟩ := hread
    have hlength : ending.length = 3 := by
      rw [← hending, List.length_drop]
      omega
    have hbelow := ofDigitChars_lt hdigits
    rw [hlength] at hbelow
    have hthousand : tenTo 3 = 1000 := rfl
    have hnines : ['9', '9', '9'] = ending ↔ Nat.ofDigitChars 10 ending 0 = 999 := by
      constructor
      · rintro rfl
        rfl
      · intro hvalue
        exact digits_injective (List.all_eq_true.1 rfl) hdigits hlength.symm hvalue.symm
    rw [hnines]
    omega

/-! ## The numbers of a stem -/

variable {category : String} {date : Date} {number : String}

theorem parts_of_wellFormed (h : wellFormed number = true) :
    number.toList.length = 10 ∧ ∀ c ∈ number.toList.drop 3, c.isDigit = true := by
  unfold wellFormed at h
  split at h
  · rename_i material digits hchars
    simp only [Bool.and_eq_true, beq_iff_eq, List.all_eq_true] at h
    obtain ⟨⟨⟨_, hlength⟩, hdigits⟩, _⟩ := h
    rw [hchars]
    exact ⟨by simp only [List.length_cons, hlength], hdigits⟩
  · cases h

theorem stem_prefix_withSequence (category : String) (date : Date) (n : Nat) :
    (stem category date).toList <+: (withSequence (stemChars category date) n).toList := by
  rw [toList_stem, toList_withSequence]
  exact List.prefix_append _ _

/-- **The well-formed numbers that start with a stem are the stem with a sequence up to 999.** -/
theorem wellFormed_of_stem :
    wellFormed number = true ∧ (stem category date).toList <+: number.toList ↔
      ∃ n ≤ 999, number = withSequence (stemChars category date) n := by
  constructor
  · rw [toList_stem]
    rintro ⟨hwell, tail, htail⟩
    obtain ⟨hlength, hdigits⟩ := parts_of_wellFormed hwell
    have hstem := length_stemChars category date
    rw [← htail, List.length_append] at hlength
    have hthree : tail.length = 3 := by omega
    have htaken : ∀ c ∈ tail, c.isDigit = true := by
      intro c hc
      refine hdigits c ?_
      rw [← htail, List.drop_append_of_le_length (by omega)]
      exact List.mem_append_right _ hc
    have hbelow := ofDigitChars_lt htaken
    rw [hthree] at hbelow
    have hvalue : Nat.ofDigitChars 10 tail 0 ≤ 999 := Nat.le_of_lt_succ hbelow
    refine ⟨Nat.ofDigitChars 10 tail 0, hvalue, ?_⟩
    rw [← String.toList_inj, toList_withSequence, ← htail]
    refine congrArg _ (digits_injective htaken (fun _ hc => isDigit_of_mem_padded hc) ?_ ?_)
    · rw [hthree, length_padded 3 (by decide) hbelow]
    · rw [ofDigitChars_padded]
  · rintro ⟨n, hn, rfl⟩
    exact ⟨wellFormed_withSequence category date hn, stem_prefix_withSequence category date n⟩

/-- In the order of bytes the numbers of a stem stand as they are counted. -/
theorem bytes_withSequence_lt_iff {m n : Nat} (hm : m ≤ 999) (hn : n ≤ 999) :
    bytes (withSequence (stemChars category date) m) < bytes (withSequence (stemChars category date) n) ↔
      m < n := by
  have hcoded := fun k => coded_withSequence (coded_stemChars category date) k
  have hascend : ∀ {i j : Nat}, i < j → i ≤ 999 → j ≤ 999 →
      bytes (withSequence (stemChars category date) i) <
        bytes (withSequence (stemChars category date) j) := by
    intro i j hij hi hj
    refine bytes_lt_bytes (hcoded i) (hcoded j) ?_
    show (withSequence _ i).toList < (withSequence _ j).toList
    rw [toList_withSequence, toList_withSequence]
    exact List.append_left_lt ((padded_lt_padded 3 (by decide) (show i < 1000 by omega)
      (show j < 1000 by omega)).2 hij)
  refine ⟨fun h => Nat.lt_of_not_le fun hnm => ?_, fun h => hascend h hm hn⟩
  rcases Nat.lt_or_eq_of_le hnm with hlt | rfl
  · exact List.lt_asymm h (hascend hlt hn hm)
  · exact List.lt_irrefl _ h

/-! ## The next number -/

/-- The next number is well formed unless the sequences are used up. -/
theorem wellFormed_next_iff (category : String) (date : Date) (greatest : Option String) :
    wellFormed (next category date greatest) = true ↔ ¬UsedUp greatest := by
  obtain ⟨hused, hthousand⟩ | ⟨hleft, _, hle⟩ := nextSequence_cases greatest
  · refine iff_of_false (fun hwell => ?_) (not_not_intro hused)
    have := (length_withSequence_eq_iff category date _).1 (parts_of_wellFormed hwell).1
    omega
  · exact iff_of_true (wellFormed_withSequence category date hle) hleft

theorem next_of_usedUp {greatest : Option String} (h : UsedUp greatest) :
    next category date greatest = stem category date ++ "1000" := by
  obtain ⟨_, hthousand⟩ | ⟨hleft, _⟩ := nextSequence_cases greatest
  · unfold next withSequence stem
    rw [hthousand, String.ofList_append]
    rfl
  · exact absurd h hleft

/-- No well-formed number of the stem is between a number and the one with the next sequence. -/
theorem successor_of_withSequence {n : Nat} (hn : n < 999) {other : String}
    (hother : wellFormed other = true) (hstarts : (stem category date).toList <+: other.toList)
    (hgreater : bytes (withSequence (stemChars category date) n) < bytes other) :
    withSequence (stemChars category date) (n + 1) = other ∨
      bytes (withSequence (stemChars category date) (n + 1)) < bytes other := by
  obtain ⟨m, hm, rfl⟩ := wellFormed_of_stem.1 ⟨hother, hstarts⟩
  rw [bytes_withSequence_lt_iff (Nat.le_of_lt hn) hm] at hgreater
  rcases Nat.lt_or_eq_of_le (show n + 1 ≤ m from hgreater) with hlt | rfl
  · exact .inr ((bytes_withSequence_lt_iff hn hm).2 hlt)
  · exact .inl rfl

/-- **The number after any text, or after none.**  It starts with the stem of the category and the day,
and it is well formed exactly when the text does not end with 999; if it does, it is the stem with 1000.
After a well-formed number of the stem with a sequence below 999 comes the one with the next sequence,
which is above it in the order of bytes, with no well-formed number of the stem between the two. -/
theorem next_follows (category : String) (date : Date) (greatest : Option String) :
    (stem category date).toList <+: (next category date greatest).toList ∧
      (wellFormed (next category date greatest) = true ↔ ¬UsedUp greatest) ∧
      (UsedUp greatest → next category date greatest = stem category date ++ "1000") ∧
      ∀ number, greatest = some number → wellFormed number = true →
        (stem category date).toList <+: number.toList →
        ∃ n ≤ 999, number = withSequence (stemChars category date) n ∧
          (n < 999 →
            next category date greatest = withSequence (stemChars category date) (n + 1) ∧
            bytes number < bytes (next category date greatest) ∧
            ∀ other, wellFormed other = true → (stem category date).toList <+: other.toList →
              bytes number < bytes other →
                next category date greatest = other ∨
                  bytes (next category date greatest) < bytes other) := by
  refine ⟨stem_prefix_withSequence _ _ _, wellFormed_next_iff _ _ _, next_of_usedUp, ?_⟩
  rintro number rfl hwell hstem
  obtain ⟨n, hn, rfl⟩ := wellFormed_of_stem.1 ⟨hwell, hstem⟩
  refine ⟨n, hn, rfl, fun hbelow => ?_⟩
  have hnext : next category date (some (withSequence (stemChars category date) n)) =
      withSequence (stemChars category date) (n + 1) := by
    unfold next
    rw [nextSequence_withSequence category date hn]
  rw [hnext]
  refine ⟨rfl, (bytes_withSequence_lt_iff hn hbelow).2 (Nat.lt_succ_self n), ?_⟩
  exact fun other hother hstarts => successor_of_withSequence hbelow hother hstarts

/-- In December of the year -5 the number after 041 is 042, and after any text that ends with 999, here
between blanks, comes 1000. -/
theorem next_follows_december :
    ∃ day : Date, day.year = -5 ∧ wellFormed "TJF9512041" = true ∧
      (stem "膜类" day).toList <+: "TJF9512041".toList ∧
      next "膜类" day (some "TJF9512041") = "TJF9512042" ∧
      bytes "TJF9512041" < bytes "TJF9512042" ∧
      UsedUp (some "\u3000编号999 ") ∧
      next "膜类" day (some "\u3000编号999 ") = "TJF95121000" := by
  let day : Date := ⟨-5, 12, 1, by decide⟩
  have hstem : stem "膜类" day = "TJF9512" := by decide
  have hwell : wellFormed "TJF9512041" = true := by decide
  have hstarts : (stem "膜类" day).toList <+: "TJF9512041".toList := by
    rw [hstem]
    decide
  obtain ⟨_, _, _, hcounted⟩ := next_follows "膜类" day (some "TJF9512041")
  obtain ⟨n, hn, hnumber, hfollows⟩ := hcounted "TJF9512041" rfl hwell hstarts
  have hfortyOne : n = 41 := by
    have hsequence := nextSequence_withSequence "膜类" day hn
    rw [← hnumber, show nextSequence (some "TJF9512041") = 42 by decide] at hsequence
    omega
  subst hfortyOne
  obtain ⟨hnext, hgreater, _⟩ := hfollows (by decide)
  have hname : withSequence (stemChars "膜类" day) (41 + 1) = "TJF9512042" := by decide
  rw [hname] at hnext
  rw [hnext] at hgreater
  have hused : UsedUp (some "\u3000编号999 ") := by
    unfold UsedUp
    decide
  obtain ⟨_, _, hthousand, _⟩ := next_follows "膜类" day (some "\u3000编号999 ")
  refine ⟨day, rfl, hwell, hstarts, hnext, hgreater, hused, ?_⟩
  rw [hthousand hused, hstem]
  decide

end ReportNumber

end MaterialInspection
