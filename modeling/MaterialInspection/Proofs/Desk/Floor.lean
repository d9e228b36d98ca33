import MaterialInspection.Proofs.Desk.Import
import MaterialInspection.Proofs.Store.Transaction

/-!
# Several desks over one store

Any number of desks work on one store at the same time.  A call at a desk goes through several
transactions, and between two of them every other desk can have its turn; only a transaction is one
step.

## The steps

* A call (`Call`) reads the catalog once, then draws one report after another and tries each of them
  up to three times; a number that turned out to be taken is worked out anew.
* A floor (`Floor`) is the store and the calls that were started.  In one step a call is started or
  goes on by one transaction, a desk is opened, or an item or a setting is written.

## Results

* `batch_alone`, `create_alone` — a call that nobody interrupts does what `Desk.batch` and
  `Desk.create` do, so the calls of a floor are the desk's own operations cut at their transactions.
* `Reaches.importFile` — importing a file is a run of steps that write one item each.
* `Step.move` — whatever a step is, it leaves the store, enters one report under the next number of
  its stem, writes items or settings, or makes missing tables (`Store.Move`).
* `Reaches.keeps` — what every such move keeps holds on every floor that is reached.
-/

set_option autoImplicit false

namespace MaterialInspection

/-! ## Calls -/

/-- Where a call stands between two transactions. -/
inductive Phase
  /-- The catalog is still to be read. -/
  | asked
  /-- The next delivery is to be drawn. -/
  | ready (catalog : List Item)
  /-- A report on a delivery is drawn, and there are attempts left to write it. -/
  | writing (catalog : List Item) (delivery : Delivery) (report : Report) (attempts : Nat)
  /-- The call was refused as a whole. -/
  | refused (e : DeskError)
  deriving DecidableEq

/-- A call for reports: the deliveries still to come and what became of those before them. -/
structure Call where
  settings : Settings
  inspector : String
  date : Date
  deliveries : List Delivery
  words : WordStream
  outcomes : List (Delivery × Except DeskError Report)
  phase : Phase

namespace Call

/-- A call before its first transaction. -/
def start (settings : Settings) (deliveries : List Delivery) (inspector : String) (date : Date)
    (words : WordStream) : Call :=
  ⟨settings, inspector, date, deliveries, words, [],
    if Text.blank inspector then .refused .blankInspector else .asked⟩

/-- The call after a delivery is done with. -/
def settle (c : Call) (catalog : List Item) (delivery : Delivery)
    (outcome : Except DeskError Report) : Call :=
  { c with outcomes := c.outcomes ++ [(delivery, outcome)], phase := .ready catalog }

/-- The call and the store after its next transaction. -/
def step (c : Call) (s : Store) : Call × Store :=
  match c.phase with
  | .asked =>
    match s.activeItems with
    | .error e => ({ c with phase := .refused (.store e) }, s)
    | .ok catalog => ({ c with phase := .ready catalog }, s)
  | .ready catalog =>
    match c.deliveries with
    | [] => (c, s)
    | delivery :: rest =>
      if Text.blank delivery.product then
        (settle { c with deliveries := rest } catalog delivery (.error .blankProduct), s)
      else
        let (report, words) := Report.draft c.settings delivery catalog c.inspector c.date c.words
        ({ c with
          deliveries := rest
          words
          phase := .writing catalog delivery report Desk.maxAttempts }, s)
  | .writing catalog delivery _ 0 =>
    (c.settle catalog delivery (.error (.store (.duplicate .reports "report_no"))), s)
  | .writing catalog delivery report (attempts + 1) =>
    match s.insertReport (ReportNumber.stem report.category report.inspected) report
      (ReportNumber.next report.category report.inspected) with
    | (.error (.duplicate table column), after) =>
      if attempts = 0 then
        (c.settle catalog delivery (.error (.store (.duplicate table column))), after)
      else ({ c with phase := .writing catalog delivery report attempts }, after)
    | (.error e, after) => (c.settle catalog delivery (.error (.store e)), after)
    | (.ok number, after) => (c.settle catalog delivery (.ok { report with number }), after)
  | .refused _ => (c, s)

/-- One call goes on by some transactions while nobody else has a turn. -/
inductive Runs : Call × Store → Call × Store → Prop
  | done (x : Call × Store) : Runs x x
  | next {c : Call} {s : Store} {y : Call × Store} (h : Runs (c.step s) y) : Runs (c, s) y

theorem Runs.trans {x y z : Call × Store} (h : Runs x y) (h' : Runs y z) : Runs x z := by
  induction h with
  | done => exact h'
  | next _ ih => exact .next (ih h')

/-! ## A call alone -/

/-- What became of a report that was tried to be written. -/
def written (report : Report) : Except StoreError String → Except DeskError Report
  | .ok number => .ok { report with number }
  | .error e => .error (.store e)

/-- The attempts to write a report are those of `Desk.write`. -/
theorem runs_write (c : Call) (catalog : List Item) (delivery : Delivery) (report : Report)
    (attempts : Nat) (s : Store) (hp : c.phase = .writing catalog delivery report attempts) :
    Runs (c, s) (c.settle catalog delivery (written report (Desk.write report attempts s).1),
      (Desk.write report attempts s).2) := by
  induction attempts generalizing c s with
  | zero =>
    refine .next ?_
    simp only [step, hp]
    exact .done _
  | succ attempts ih =>
    refine .next ?_
    simp only [step, hp, Desk.write]
    generalize Store.insertReport _ _ _ s = outcome
    obtain ⟨result, after⟩ := outcome
    cases result with
    | ok number => exact .done _
    | error e =>
      cases e with
      | duplicate table column =>
        dsimp only
        split
        · exact .done _
        · exact ih { c with phase := .writing catalog delivery report attempts } after rfl
      | _ => exact .done _

/-- One delivery takes a call from one report to the next as `Desk.save` says. -/
theorem runs_save (c : Call) (catalog : List Item) (delivery : Delivery) (rest : List Delivery)
    (s : Store) (hp : c.phase = .ready catalog) (hd : c.deliveries = delivery :: rest) :
    Runs (c, s)
      (let saved := Desk.save c.settings catalog delivery c.inspector c.date s c.words
       (settle { c with deliveries := rest, words := saved.2.2 } catalog delivery saved.1,
        saved.2.1)) := by
  refine .next ?_
  by_cases hb : Text.blank delivery.product = true
  · simp only [step, hp, hd, Desk.save, hb, if_true]
    exact .done _
  · simp only [step, hp, hd, Desk.save, hb, Bool.false_eq_true, if_false]
    have hw := runs_write
      { c with
        deliveries := rest
        words := (Report.draft c.settings delivery catalog c.inspector c.date c.words).2
        phase := .writing catalog delivery
          (Report.draft c.settings delivery catalog c.inspector c.date c.words).1
          Desk.maxAttempts }
      catalog delivery _ Desk.maxAttempts s rfl
    split
    · rename_i number after hn
      rw [hn] at hw
      exact hw
    · rename_i e after he
      rw [he] at hw
      exact hw

/-- The numbers and the failures among outcomes, the places counted from a first one. -/
def tally : Nat → List (Delivery × Except DeskError Report) → Desk.BatchResult
  | _, [] => {}
  | index, (_, .ok report) :: rest => (tally (index + 1) rest).withReport report.number
  | index, (delivery, .error e) :: rest =>
    (tally (index + 1) rest).withFailure ⟨index, delivery.product, e⟩

/-- A call alone goes through its deliveries as `Desk.saveAll` does. -/
theorem runs_saveAll (c : Call) (catalog : List Item) (s : Store) (index : Nat)
    (hp : c.phase = .ready catalog) :
    ∃ outcomes,
      let saved := Desk.saveAll c.settings catalog c.inspector c.date index c.deliveries s c.words
      saved.1 = tally index outcomes ∧
        Runs (c, s)
          ({ c with
              deliveries := []
              words := saved.2.2
              outcomes := c.outcomes ++ outcomes }, saved.2.1) := by
  obtain ⟨settings, inspector, date, deliveries, words, done, phase⟩ := c
  dsimp only at hp
  subst hp
  induction deliveries generalizing s index words done with
  | nil =>
    refine ⟨[], rfl, ?_⟩
    simp only [List.append_nil]
    exact .done _
  | cons delivery rest ih =>
    have hone := runs_save ⟨settings, inspector, date, delivery :: rest, words, done, .ready catalog⟩
      catalog delivery rest s rfl rfl
    obtain ⟨outcomes, ht, hruns⟩ := ih (Desk.save settings catalog delivery inspector date s words).2.1
      (index + 1) (Desk.save settings catalog delivery inspector date s words).2.2
      (done ++ [(delivery, (Desk.save settings catalog delivery inspector date s words).1)])
    refine ⟨(delivery, (Desk.save settings catalog delivery inspector date s words).1) :: outcomes,
      ?_, ?_⟩
    · unfold Desk.saveAll
      dsimp only at ht ⊢
      rw [ht]
      cases (Desk.save settings catalog delivery inspector date s words).1 with
      | ok report => rfl
      | error e => rfl
    · have hall := hone.trans hruns
      unfold Desk.saveAll
      dsimp only at hall ⊢
      rw [List.append_assoc] at hall
      cases ho : (Desk.save settings catalog delivery inspector date s words).1 with
      | ok report =>
        rw [ho] at hall
        exact hall
      | error e =>
        rw [ho] at hall
        exact hall

/-- The reply to a call for several reports, once there is one. -/
def batchReply (c : Call) : Option (Except DeskError Desk.BatchResult) :=
  match c.phase, c.deliveries with
  | .refused e, _ => some (.error e)
  | .ready _, [] => some (.ok (tally 0 c.outcomes))
  | _, _ => none

/-- The reply to a call for one report, once there is one. -/
def reply (c : Call) : Option (Except DeskError Report) :=
  match c.phase, c.outcomes with
  | .refused e, _ => some (.error e)
  | .ready _, [(_, outcome)] => some outcome
  | _, _ => none

variable {settings : Settings} {inspector : String} {date : Date} {words : WordStream}

/-- Reading the catalog takes a call to its first delivery, or ends it. -/
theorem runs_catalog (deliveries : List Delivery) (s : Store)
    (hb : Text.blank inspector = false) {catalog : List Item} (hc : s.activeItems = .ok catalog) :
    Runs (start settings deliveries inspector date words, s)
      (⟨settings, inspector, date, deliveries, words, [], .ready catalog⟩, s) := by
  refine .next ?_
  simp only [step, start, hb, Bool.false_eq_true, if_false, hc]
  exact .done _

/-- **A call for several reports that nobody interrupts is `Desk.batch`.** -/
theorem batch_alone (deliveries : List Delivery) (hne : deliveries ≠ []) (s : Store) :
    ∃ c, Runs (start settings deliveries inspector date words, s)
        (c, (Desk.batch ⟨s, settings⟩ deliveries inspector date words).2.1) ∧
      c.batchReply = some (Desk.batch ⟨s, settings⟩ deliveries inspector date words).1 ∧
      c.words = (Desk.batch ⟨s, settings⟩ deliveries inspector date words).2.2 := by
  have he : deliveries.isEmpty = false := by simpa using hne
  unfold Desk.batch
  rw [he]
  simp only [Bool.false_eq_true, if_false]
  cases hb : Text.blank inspector with
  | true =>
    exact ⟨start settings deliveries inspector date words, .done _, by simp [batchReply, start, hb],
      rfl⟩
  | false =>
    cases hc : s.activeItems with
    | error e =>
      refine ⟨(start settings deliveries inspector date words).step s |>.1, .next ?_, ?_, ?_⟩
      · simp only [step, start, hb, Bool.false_eq_true, if_false, hc]
        exact .done _
      · simp [batchReply, step, start, hb, hc]
      · simp [step, start, hb, hc]
    | ok catalog =>
      obtain ⟨outcomes, ht, hruns⟩ :=
        runs_saveAll ⟨settings, inspector, date, deliveries, words, [], .ready catalog⟩ catalog s 0 rfl
      refine ⟨_, (runs_catalog deliveries s hb hc).trans hruns, ?_, rfl⟩
      dsimp only at ht
      simp [batchReply, ht]

/-- **A call for one report that nobody interrupts is `Desk.create`.** -/
theorem create_alone (delivery : Delivery) (s : Store) :
    ∃ c, Runs (start settings [delivery] inspector date words, s)
        (c, (Desk.create ⟨s, settings⟩ delivery inspector date words).2.1) ∧
      c.reply = some (Desk.create ⟨s, settings⟩ delivery inspector date words).1 ∧
      c.words = (Desk.create ⟨s, settings⟩ delivery inspector date words).2.2 := by
  unfold Desk.create
  cases hb : Text.blank inspector with
  | true =>
    exact ⟨start settings [delivery] inspector date words, .done _, by simp [reply, start, hb], rfl⟩
  | false =>
    simp only [Bool.false_eq_true, if_false]
    cases hc : s.activeItems with
    | error e =>
      refine ⟨(start settings [delivery] inspector date words).step s |>.1, .next ?_, ?_, ?_⟩
      · simp only [step, start, hb, Bool.false_eq_true, if_false, hc]
        exact .done _
      · simp [reply, step, start, hb, hc]
      · simp [step, start, hb, hc]
    | ok catalog =>
      have hruns := runs_save ⟨settings, inspector, date, [delivery], words, [], .ready catalog⟩
        catalog delivery [] s rfl rfl
      exact ⟨_, (runs_catalog [delivery] s hb hc).trans hruns, rfl, rfl⟩

end Call

/-! ## Floors -/

/-- The store, and the calls that were started at any of the desks. -/
structure Floor where
  store : Store
  calls : List Call

namespace Floor

/-- One step of one desk. -/
inductive Step : Floor → Floor → Prop
  | start (f : Floor) (settings : Settings) (deliveries : List Delivery) (inspector : String)
      (date : Date) (words : WordStream) :
      Step f ⟨f.store, f.calls ++ [.start settings deliveries inspector date words]⟩
  | goOn (s : Store) (before : List Call) (c : Call) (behind : List Call) :
      Step ⟨s, before ++ c :: behind⟩ ⟨(c.step s).2, before ++ (c.step s).1 :: behind⟩
  | openDesk (f : Floor) : Step f ⟨(Desk.openOn f.store).store, f.calls⟩
  | putItem (f : Floor) (item : Item) : Step f ⟨(f.store.putItem item).2, f.calls⟩
  | deactivate (f : Floor) (id : Int) : Step f ⟨(f.store.deactivate id).2, f.calls⟩
  | setSetting (f : Floor) (key value : String) : Step f ⟨(f.store.setSetting key value).2, f.calls⟩

/-- Any number of steps, in any order. -/
inductive Reaches : Floor → Floor → Prop
  | here (f : Floor) : Reaches f f
  | step {f g h : Floor} (hr : Reaches f g) (hs : Step g h) : Reaches f h

theorem Reaches.trans {f g h : Floor} (hfg : Reaches f g) (hgh : Reaches g h) : Reaches f h := by
  induction hgh with
  | here => exact hfg
  | step _ hs ih => exact .step ih hs

/-- What a call does alone it can do on a floor, among others. -/
theorem Reaches.of_runs {before behind : List Call} {x y : Call × Store} (h : Call.Runs x y) :
    Reaches ⟨x.2, before ++ x.1 :: behind⟩ ⟨y.2, before ++ y.1 :: behind⟩ := by
  induction h with
  | done => exact .here _
  | next _ ih => exact (Reaches.step (.here _) (.goOn _ _ _ _)).trans ih

/-- The floor after the call at a place, if there is one, has gone on by one transaction. -/
def turn (f : Floor) (place : Nat) : Floor :=
  match f.calls[place]? with
  | none => f
  | some c => ⟨(c.step f.store).2, f.calls.set place (c.step f.store).1⟩

/-- Calls that take turns in any order reach a floor. -/
theorem reaches_turns (f : Floor) (places : List Nat) : Reaches f (places.foldl turn f) := by
  refine List.foldlRecOn _ _ (.here f) fun g hg place _ => hg.trans ?_
  unfold turn
  split
  · exact .here g
  · rename_i c hc
    obtain ⟨hplace, rfl⟩ := List.getElem?_eq_some_iff.1 hc
    have hsplit : g.calls = g.calls.take place ++ g.calls[place] :: g.calls.drop (place + 1) := by
      rw [List.getElem_cons_drop, List.take_append_drop]
    have hstep := Reaches.step (.here _) (Step.goOn g.store (g.calls.take place) g.calls[place]
      (g.calls.drop (place + 1)))
    rw [← hsplit] at hstep
    rw [List.set_eq_take_append_cons_drop, if_pos hplace]
    exact hstep

/-- Importing a file is one step for each item. -/
theorem Reaches.importFile (file : CatalogFile) (s : Store) (calls : List Call) :
    Reaches ⟨s, calls⟩ ⟨(Desk.importFile file s).2, calls⟩ := by
  obtain ⟨rows, hstore⟩ := Desk.importFile_store file s
  rw [hstore]
  exact List.foldlRecOn (motive := fun t => Reaches ⟨s, calls⟩ ⟨t, calls⟩) _ _ (.here _)
    fun t ht item _ => ht.step (.putItem ⟨t, calls⟩ item)

end Floor

/-! ## What a step does to the store -/

/-- The number that the next report of its category and month gets is given to a report. -/
def Store.issue (s : Store) (r : Report) : Except StoreError String × Store :=
  s.insertReport (ReportNumber.stem r.category r.inspected) r
    (ReportNumber.next r.category r.inspected)

/-- What one step can do to the store. -/
inductive Store.Move (s : Store) : Store → Prop
  | stay : Move s s
  | report {r : Report} {number : String} {after : Store} (h : s.issue r = (.ok number, after)) :
      Move s after
  | items (catalog : Catalog) : Move s { s with items := some catalog }
  | settings (rows : List SettingRow) : Move s { s with settings := some rows }
  | tables : Move s s.prepare

/-- A report that is not entered leaves the store as it was. -/
theorem Store.issue_error {s after : Store} {r : Report} {e : StoreError}
    (h : s.issue r = (.error e, after)) : after = s :=
  insertReport_error h

theorem Store.putItem_move (s : Store) (item : Item) : Move s (s.putItem item).2 := by
  unfold putItem statement
  dsimp only
  cases table s.items .items with
  | error e => exact .stay
  | ok catalog =>
    dsimp only
    cases catalog.put item with
    | error e => exact .stay
    | ok entered => exact .items _

theorem Store.deactivate_move (s : Store) (id : Int) : Move s (s.deactivate id).2 := by
  unfold deactivate statement
  dsimp only
  cases table s.items .items with
  | error e => exact .stay
  | ok catalog =>
    dsimp only
    cases catalog.deactivate? id with
    | none => exact .stay
    | some catalog => exact .items _

theorem Store.setSetting_move (s : Store) (key value : String) :
    Move s (s.setSetting key value).2 := by
  unfold setSetting statement
  dsimp only
  cases table s.settings .settings with
  | error e => exact .stay
  | ok rows => exact .settings _

theorem Desk.openOn_store (s : Store) : (openOn s).store = s.prepare := by
  unfold openOn
  dsimp only
  split
  · rfl
  · rfl

/-- A transaction of a call leaves the store or enters one report. -/
theorem Call.step_move (c : Call) (s : Store) : Store.Move s (c.step s).2 := by
  unfold Call.step
  cases c.phase with
  | asked =>
    dsimp only
    cases s.activeItems with
    | error e => exact .stay
    | ok catalog => exact .stay
  | ready catalog =>
    dsimp only
    cases c.deliveries with
    | nil => exact .stay
    | cons delivery rest =>
      dsimp only
      split
      · exact .stay
      · exact .stay
  | writing catalog delivery report attempts =>
    cases attempts with
    | zero => exact .stay
    | succ attempts =>
      dsimp only
      rw [← Store.issue]
      cases hi : s.issue report with
      | mk result after =>
        cases result with
        | ok number => exact .report hi
        | error e =>
          obtain rfl := Store.issue_error hi
          cases e with
          | duplicate table column =>
            dsimp only
            split
            · exact .stay
            · exact .stay
          | _ => exact .stay
  | refused e => exact .stay

namespace Floor

/-- Every step is one move of the store. -/
theorem Step.move {f g : Floor} (h : Step f g) : Store.Move f.store g.store := by
  cases h with
  | start => exact .stay
  | goOn s before c behind => exact c.step_move s
  | openDesk =>
    dsimp only
    rw [Desk.openOn_store]
    exact .tables
  | putItem _ item => exact f.store.putItem_move item
  | deactivate _ id => exact f.store.deactivate_move id
  | setSetting _ key value => exact f.store.setSetting_move key value

/-- **What every move keeps holds on every floor that is reached.** -/
theorem Reaches.keeps {P : Store → Prop} (hm : ∀ s t, P s → Store.Move s t → P t) {f g : Floor}
    (h : Reaches f g) (hf : P f.store) : P g.store := by
  induction h with
  | here => exact hf
  | step _ hs ih => exact hm _ _ ih hs.move

end Floor

end MaterialInspection
