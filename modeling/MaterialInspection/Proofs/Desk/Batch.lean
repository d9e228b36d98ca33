import MaterialInspection.Proofs.Report.ReadBack

/-!
# A batch is its deliveries one by one

`Desk.batch` reads the catalog once and `Desk.create` reads it again for every delivery.  The two
agree because no report touches the catalog: whether it is written, refused, or tried again under
another number, all that changes is the tables of reports and findings.

* `Desk.save_items` — a delivery that is saved, or is not, leaves the items as they were.
* `Desk.saveAll_eq` — saving deliveries from one reading of the catalog is creating them one by one.
* `Desk.batch_one_by_one` — a batch leaves the store and the words that the single calls leave, lists
  the numbers of those that succeed, and names those that fail by their places.
-/

set_option autoImplicit false

namespace MaterialInspection

/-! ## What a report leaves alone -/

/-- A report that is given a number, or is refused one, leaves the items as they were. -/
theorem Store.issue_items (s : Store) (r : Report) : (s.issue r).2.items = s.items := by
  unfold issue
  rcases insertReport_cases _ r _ s with he | ⟨_, _, _, _, he⟩
  · rw [he]
  · rw [he]
    rfl

theorem Store.activeItems_congr {s t : Store} (h : t.items = s.items) :
    t.activeItems = s.activeItems := by
  unfold activeItems
  rw [h]

namespace Desk

/-- However often a report is tried again, the items stay as they were. -/
theorem write_items (r : Report) (attempts : Nat) (s : Store) :
    (write r attempts s).2.items = s.items := by
  induction attempts generalizing s with
  | zero => rfl
  | succ attempts ih =>
    have hissue := s.issue_items r
    unfold write
    dsimp only
    rw [← Store.issue]
    split
    · rename_i table column after hi
      rw [hi] at hissue
      split
      · exact hissue
      · rw [ih after]
        exact hissue
    · exact hissue

variable (settings : Settings) (inspector : String) (date : Date)

/-- A delivery leaves the items as they were, with a report or without one. -/
theorem save_items (catalog : List Item) (delivery : Delivery) (s : Store) (words : WordStream) :
    (save settings catalog delivery inspector date s words).2.1.items = s.items := by
  unfold save
  split
  · rfl
  · dsimp only
    have hwrite := write_items
      (Report.draft settings delivery catalog inspector date words).1 maxAttempts s
    split
    · rename_i number after hw
      rw [hw] at hwrite
      exact hwrite
    · rename_i e after hw
      rw [hw] at hwrite
      exact hwrite

/-! ## One call after another -/

/-- Reports on deliveries by one call each, on the store and with the words that the call before
leaves.  A failed call does not keep the next from being made. -/
def createEach :
    List Delivery → Store → WordStream → List (Except DeskError Report) × Store × WordStream
  | [], s, words => ([], s, words)
  | delivery :: rest, s, words =>
    let (outcome, s, words) := create ⟨s, settings⟩ delivery inspector date words
    let (others, s, words) := createEach rest s words
    (outcome :: others, s, words)

theorem length_createEach (deliveries : List Delivery) (s : Store) (words : WordStream) :
    (createEach settings inspector date deliveries s words).1.length = deliveries.length := by
  induction deliveries generalizing s words with
  | nil => rfl
  | cons delivery rest ih =>
    unfold createEach
    dsimp only
    rw [List.length_cons, List.length_cons, ih]

variable {inspector} {catalog : List Item}

/-- A call for one report saves it from the catalog that it finds. -/
theorem create_eq_save (hb : Text.blank inspector = false) {s : Store}
    (hc : s.activeItems = .ok catalog) (delivery : Delivery) (words : WordStream) :
    create ⟨s, settings⟩ delivery inspector date words =
      save settings catalog delivery inspector date s words := by
  unfold create
  rw [hb, if_neg Bool.false_ne_true]
  dsimp only
  rw [hc]

/-- **Saving deliveries from one reading of the catalog is creating them one by one.** -/
theorem saveAll_eq (hb : Text.blank inspector = false) (deliveries : List Delivery) {s : Store}
    (hc : s.activeItems = .ok catalog) (index : Nat) (words : WordStream) :
    saveAll settings catalog inspector date index deliveries s words =
      (let each := createEach settings inspector date deliveries s words
       (Call.tally index (deliveries.zip each.1), each.2)) := by
  induction deliveries generalizing s index words with
  | nil => rfl
  | cons delivery rest ih =>
    have hone := create_eq_save settings date hb hc delivery words
    -- the next call reads the same catalog
    have hnext := Store.activeItems_congr
      (save_items settings inspector date catalog delivery s words)
    rw [hc] at hnext
    have hrest := ih hnext (index + 1)
      (save settings catalog delivery inspector date s words).2.2
    unfold saveAll createEach
    rw [hone]
    dsimp only at hrest ⊢
    rw [hrest]
    cases (save settings catalog delivery inspector date s words).1 with
    | ok report => rfl
    | error e => rfl

end Desk

/-! ## Tallies -/

namespace Call

/-- The numbers are those of the reports, in order. -/
theorem numbers_tally (index : Nat) (outcomes : List (Delivery × Except DeskError Report)) :
    (tally index outcomes).numbers =
      (outcomes.map (·.2)).filterMap fun outcome => outcome.toOption.map (·.number) := by
  induction outcomes generalizing index with
  | nil => rfl
  | cons first rest ih =>
    obtain ⟨delivery, outcome⟩ := first
    cases outcome with
    | ok report => exact congrArg (report.number :: ·) (ih (index + 1))
    | error e => exact ih (index + 1)

/-- The failures are the deliveries without a report, by their places and in order. -/
theorem failures_tally (index : Nat) (outcomes : List (Delivery × Except DeskError Report)) :
    (tally index outcomes).failures.Pairwise (fun a b => a.index < b.index) ∧
      ∀ f, f ∈ (tally index outcomes).failures ↔ ∃ n delivery, f.index = index + n ∧
        outcomes[n]? = some (delivery, .error f.error) ∧ f.product = delivery.product := by
  induction outcomes generalizing index with
  | nil =>
    refine ⟨List.Pairwise.nil, fun f => ⟨(nomatch ·), ?_⟩⟩
    rintro ⟨n, delivery, _, h, _⟩
    cases h
  | cons first rest ih =>
    obtain ⟨delivery, outcome⟩ := first
    obtain ⟨hsorted, hmem⟩ := ih (index + 1)
    -- a later place is one place further from the first of all than from the second
    have hlater : ∀ f, f ∈ (tally (index + 1) rest).failures ↔ ∃ n d, f.index = index + (n + 1) ∧
        rest[n]? = some (d, .error f.error) ∧ f.product = d.product := by
      intro f
      rw [hmem]
      simp only [Nat.add_assoc, Nat.add_comm 1]
    cases outcome with
    | ok report =>
      refine ⟨hsorted, fun f => ?_⟩
      refine (hlater f).trans ⟨?_, ?_⟩
      · rintro ⟨n, d, hi, hn, hp⟩
        exact ⟨n + 1, d, hi, hn, hp⟩
      · rintro ⟨n, d, hi, hn, hp⟩
        cases n with
        | zero => cases hn
        | succ n => exact ⟨n, d, hi, hn, hp⟩
    | error e =>
      refine ⟨List.Pairwise.cons ?_ hsorted, fun f => ?_⟩
      · intro f hf
        obtain ⟨n, _, hi, _⟩ := (hlater f).1 hf
        dsimp only
        omega
      · refine List.mem_cons.trans ⟨?_, ?_⟩
        · rintro (rfl | hf)
          · exact ⟨0, delivery, rfl, rfl, rfl⟩
          · obtain ⟨n, d, hi, hn, hp⟩ := (hlater f).1 hf
            exact ⟨n + 1, d, hi, hn, hp⟩
        · rintro ⟨n, d, hi, hn, hp⟩
          cases n with
          | zero =>
            obtain ⟨i, p, error⟩ := f
            cases hn
            dsimp only at hi hp
            subst hi hp
            exact Or.inl rfl
          | succ n => exact Or.inr ((hlater f).2 ⟨n, d, hi, hn, hp⟩)

/-- The counts are those of the numbers and of the failures. -/
theorem counts_tally (index : Nat) (outcomes : List (Delivery × Except DeskError Report)) :
    (tally index outcomes).successes = (tally index outcomes).numbers.length ∧
      (tally index outcomes).failed = (tally index outcomes).failures.length := by
  induction outcomes generalizing index with
  | nil => exact ⟨rfl, rfl⟩
  | cons first rest ih =>
    obtain ⟨delivery, outcome⟩ := first
    obtain ⟨hsuccesses, hfailed⟩ := ih (index + 1)
    cases outcome with
    | ok report => exact ⟨congrArg (· + 1) hsuccesses, hfailed⟩
    | error e => exact ⟨hsuccesses, congrArg (· + 1) hfailed⟩

/-- Every delivery counts once, as a success or as a failure. -/
theorem count_tally (index : Nat) (outcomes : List (Delivery × Except DeskError Report)) :
    (tally index outcomes).successes + (tally index outcomes).failed = outcomes.length := by
  induction outcomes generalizing index with
  | nil => rfl
  | cons first rest ih =>
    obtain ⟨delivery, outcome⟩ := first
    have hrest := ih (index + 1)
    cases outcome with
    | ok report =>
      unfold tally Desk.BatchResult.withReport
      rw [List.length_cons, ← hrest]
      exact Nat.add_right_comm _ _ _
    | error e =>
      unfold tally Desk.BatchResult.withFailure
      rw [List.length_cons, ← hrest]
      rfl

end Call

namespace Desk

/-- **A batch does what its deliveries do one by one.**  Over a catalog that can be read, it leaves
the store and the words that a call for each delivery in turn leaves, failed ones passed over.  It
lists the numbers of the calls that succeed, in order, and names each failed call by its place, its
product and its error, in the order of the places.  Its counts are those of the two kinds, and together
they make up the batch.  Streams of words are taken as `Draw.maxRounds` says. -/
theorem batch_one_by_one {d : Desk} {deliveries : List Delivery} {inspector : String}
    {catalog : List Item} (hne : deliveries ≠ []) (hb : Text.blank inspector = false)
    (hc : d.store.activeItems = .ok catalog) (date : Date) (words : WordStream) :
    ∃ result outcomes after rest,
      d.batch deliveries inspector date words = (.ok result, after, rest) ∧
      createEach d.settings inspector date deliveries d.store words = (outcomes, after, rest) ∧
      result.numbers = outcomes.filterMap (fun outcome => outcome.toOption.map (·.number)) ∧
      result.failures.Pairwise (fun a b => a.index < b.index) ∧
      (∀ f, f ∈ result.failures ↔ outcomes[f.index]? = some (.error f.error) ∧
        (deliveries[f.index]?).map (·.product) = some f.product) ∧
      result.successes = result.numbers.length ∧ result.failed = result.failures.length ∧
      result.successes + result.failed = deliveries.length := by
  have hempty : deliveries.isEmpty = false := by simpa using hne
  have hlength := length_createEach d.settings inspector date deliveries d.store words
  have hall := saveAll_eq d.settings date hb deliveries hc 0 words
  generalize heach : createEach d.settings inspector date deliveries d.store words = each at *
  obtain ⟨outcomes, after, rest⟩ := each
  dsimp only at hall hlength
  have hsecond : (deliveries.zip outcomes).map (·.2) = outcomes :=
    List.map_snd_zip (Nat.le_of_eq hlength)
  obtain ⟨hsorted, hmem⟩ := Call.failures_tally 0 (deliveries.zip outcomes)
  obtain ⟨hsuccesses, hfailed⟩ := Call.counts_tally 0 (deliveries.zip outcomes)
  refine ⟨Call.tally 0 (deliveries.zip outcomes), outcomes, after, rest, ?_, rfl, ?_, hsorted, ?_,
    hsuccesses, hfailed, ?_⟩
  · unfold batch
    rw [hempty, hb, if_neg Bool.false_ne_true, if_neg Bool.false_ne_true, hc]
    dsimp only
    rw [hall]
  · rw [Call.numbers_tally, hsecond]
  · intro f
    rw [hmem]
    constructor
    · rintro ⟨n, delivery, hi, hn, hp⟩
      rw [Nat.zero_add] at hi
      obtain ⟨hdelivery, houtcome⟩ := List.getElem?_zip_eq_some.1 hn
      rw [hi, hdelivery, houtcome, hp]
      exact ⟨rfl, rfl⟩
    · rintro ⟨houtcome, hproduct⟩
      obtain ⟨delivery, hdelivery, hp⟩ := Option.map_eq_some_iff.1 hproduct
      exact ⟨f.index, delivery, (Nat.zero_add _).symm,
        List.getElem?_zip_eq_some.2 ⟨hdelivery, houtcome⟩, hp.symm⟩
  · rw [Call.count_tally, List.length_zip, hlength, Nat.min_self]

/-- Of a delivery without a product and one of boxes, over empty tables, the second gets the first
number and the first is named as the failure. -/
theorem batch_one_by_one_boxes :
    ∃ (d : Desk) (deliveries : List Delivery) (date : Date) (words : WordStream),
      deliveries ≠ [] ∧ Text.blank "乙" = false ∧ d.store.activeItems = .ok [] ∧
      ∃ result after, d.batch deliveries "乙" date words = (.ok result, after, words) ∧
        result = ⟨1, 1, ["TJF2501001"], [⟨0, " ", .blankProduct⟩]⟩ := by
  let day : Date := ⟨2025, 1, 15, by decide⟩
  let nameless : Delivery := ⟨"甲", " ", none, none, .zero false, 0, none, none⟩
  let boxes : Delivery := ⟨"甲", "纸箱", none, some "纸箱", .zero false, 0, none, none⟩
  obtain ⟨settings⟩ : Nonempty Settings := ⟨{}⟩
  obtain ⟨words⟩ : Nonempty WordStream := ⟨⟨fun _ => 0, 0⟩⟩
  have hb : Text.blank "乙" = false := by decide
  have hrefused : create ⟨Store.blank.prepare, settings⟩ nameless "乙" day words =
      (.error .blankProduct, Store.blank.prepare, words) := by
    have hp : Text.blank nameless.product = true := by decide
    rw [create_eq_save settings day hb Store.activeItems_blank, save, hp, if_pos rfl]
  have hproduct : Text.blank boxes.product = false := by decide
  obtain ⟨report, after, hcreated, hnumber, _⟩ := create_first settings day words hb hproduct rfl
  have hfirst : ReportNumber.withSequence
      (ReportNumber.stemChars boxes.materialCategory day) 1 = "TJF2501001" := by decide
  have heach : createEach settings "乙" day [nameless, boxes] Store.blank.prepare words =
      ([.error .blankProduct, .ok report], after, words) := by
    simp only [createEach, hrefused, hcreated]
  obtain ⟨result, outcomes, after', rest, hbatch, he, hnumbers, _, hfailures, hsuccesses, hfailed,
      hcount⟩ :=
    @batch_one_by_one ⟨Store.blank.prepare, settings⟩ [nameless, boxes] "乙" [] (by decide) hb
      Store.activeItems_blank day words
  rw [heach] at he
  cases he
  have hone : result.numbers = ["TJF2501001"] := by
    rw [hnumbers, ← hfirst, ← hnumber]
    rfl
  refine ⟨_, _, day, words, by decide, hb, Store.activeItems_blank, result, after, hbatch, ?_⟩
  have hmem : ⟨0, " ", .blankProduct⟩ ∈ result.failures := (hfailures _).2 ⟨rfl, rfl⟩
  obtain ⟨successes, failed, numbers, failures⟩ := result
  dsimp only at hone hsuccesses hfailed hcount hmem
  subst hone
  rw [hsuccesses, hfailed] at hcount
  obtain ⟨f, rfl⟩ := List.length_eq_one_iff.1 (Nat.add_left_cancel hcount)
  rw [hsuccesses, hfailed, List.mem_singleton.1 hmem]
  rfl

end Desk

end MaterialInspection
