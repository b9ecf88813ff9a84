import QueryExec.Proofs.Trace

/-!
Rows of other types do not disturb an aggregation. Two passes are compared, one over some rows and
one over the same rows with rows of other types inserted anywhere. The second gives what the first
gives, and the inserted rows themselves, each by the call that takes it; when the first fails, the
second fails in the same place for the same reason.
-/

namespace QueryExec

open QueryExec.Action

/-- An entry of a list into which entries were inserted. -/
structure Placed (item : Type) where
  item : item
  inserted : Bool

namespace Placed

variable {item : Type}

def all (entries : List (Placed item)) : List item :=
  entries.map Placed.item

/-- The entries that were put in, in order. -/
def insertions (entries : List (Placed item)) : List item :=
  (entries.filter Placed.inserted).map Placed.item

/-- The list before anything was put in. -/
def originals (entries : List (Placed item)) : List item :=
  (entries.filter fun entry => !entry.inserted).map Placed.item

variable (entry : item) (rest : List (Placed item))

@[simp]
theorem all_cons (inserted : Bool) : all (⟨entry, inserted⟩ :: rest) = entry :: all rest :=
  rfl

@[simp]
theorem originals_inserted : originals (⟨entry, true⟩ :: rest) = originals rest :=
  rfl

@[simp]
theorem originals_kept : originals (⟨entry, false⟩ :: rest) = entry :: originals rest :=
  rfl

/-- A list into which nothing was put. -/
def untouched (items : List item) : List (Placed item) :=
  items.map fun item => ⟨item, false⟩

theorem all_untouched (items : List item) : all (untouched items) = items := by
  unfold all untouched
  rw [List.map_map]
  exact List.map_id items

theorem originals_untouched (items : List item) : originals (untouched items) = items := by
  induction items with
  | nil => rfl
  | cons item items induction => exact congrArg (item :: ·) induction

theorem insertions_untouched (items : List item) : insertions (untouched items) = [] := by
  induction items with
  | nil => rfl
  | cons item items induction => exact induction

theorem insertions_append (first second : List (Placed item)) :
    insertions (first ++ second) = insertions first ++ insertions second := by
  unfold insertions
  rw [List.filter_append, List.map_append]

end Placed

section Passing

open Placed

/-- These are the entries that a pass over all of them takes: all, or those up to the first with
which the pass fails. -/
def Reaches (pass : List Row → Trace) (entries taken : List (Placed Row)) : Prop :=
  taken <+: entries ∧
    match (pass (all entries)).ending with
    | none => taken = entries
    | some interrupt => (pass (all taken)).ending = some interrupt ∧
        ∀ shorter, shorter <+: taken → shorter ≠ taken → (pass (all shorter)).ending = none

/-- What a pass over all entries gives, told apart into rows that were inserted and the rows that
the pass gives without them. -/
structure PassesThrough (pass : List Row → Trace) (entries : List (Placed Row))
    (given : List (Placed Emitted)) : Prop where
  gives : (pass (all entries)).given = all given
  same_rows : (originals given).map Emitted.row = (pass (originals entries)).given.map Emitted.row
  same_ending : (pass (all entries)).ending = (pass (originals entries)).ending
  /-- After each call the inserted rows given so far are those taken so far. So an inserted row is
  given before whatever a later row or the end of the rows brings about. -/
  at_once : ∀ earlier last later, given = earlier ++ last :: later →
    ∃ taken left, entries = taken ++ left ∧ last.item.left = all left ∧
      (insertions (earlier ++ [last])).map Emitted.row = insertions taken
  /-- In the end the inserted rows given are those taken before the pass ended or failed. -/
  complete : ∃ taken, Reaches pass entries taken ∧
    (insertions given).map Emitted.row = insertions taken

variable {pass next : List Row → Trace} {entries : List (Placed Row)}
  {given : List (Placed Emitted)} {row made : Row}

/-- A pass that fails at once gives nothing, whatever was inserted. -/
theorem stopped_passes_through (interrupt : Interrupt) (entries : List (Placed Row)) :
    PassesThrough (fun _ => .stopped interrupt) entries [] where
  gives := rfl
  same_rows := rfl
  same_ending := rfl
  at_once := by
    intro earlier last later impossible
    cases earlier <;> cases impossible
  complete := by
    refine ⟨[], ⟨List.nil_prefix, rfl, ?_⟩, rfl⟩
    intro shorter within other
    exact absurd (List.prefix_nil.mp within) other

/-- What is given after the last row is given in either pass. -/
theorem last_passes_through (clean : (pass []).ending = none)
    (done : ∀ emitted ∈ (pass []).given, emitted.left = []) :
    PassesThrough pass [] (untouched (pass []).given) where
  gives := (all_untouched _).symm
  same_rows := by
    rw [originals_untouched]
    rfl
  same_ending := rfl
  at_once := by
    intro earlier last later same
    have among : last ∈ untouched (pass []).given := by
      rw [same]
      simp
    obtain ⟨emitted, member, rfl⟩ := List.mem_map.mp among
    have none := insertions_untouched (pass []).given
    rw [same, List.append_cons, insertions_append] at none
    exact ⟨[], [], rfl, done emitted member,
      congrArg (List.map Emitted.row) (List.append_eq_nil_iff.mp none).1⟩
  complete := by
    refine ⟨[], ⟨List.nil_prefix, ?_⟩, congrArg _ (insertions_untouched _)⟩
    rw [show (pass (all [])).ending = none from clean]

/-- Only what a pass does on some of the entries matters. -/
theorem passes_through_congr (same : ∀ rows, rows.Sublist (all entries) → pass rows = next rows)
    (through : PassesThrough next entries given) : PassesThrough pass entries given := by
  have whole : pass (all entries) = next (all entries) := same _ (List.Sublist.refl _)
  have kept : pass (originals entries) = next (originals entries) :=
    same _ (List.filter_sublist.map Placed.item)
  have part : ∀ taken, taken <+: entries → pass (all taken) = next (all taken) :=
    fun taken within => same _ (within.sublist.map Placed.item)
  exact {
    gives := whole ▸ through.gives
    same_rows := kept ▸ through.same_rows
    same_ending := whole ▸ kept ▸ through.same_ending
    at_once := through.at_once
    complete := by
      obtain ⟨taken, ⟨within, stops⟩, given⟩ := through.complete
      refine ⟨taken, ⟨within, ?_⟩, given⟩
      rw [whole]
      revert stops
      cases (next (all entries)).ending with
      | none => exact id
      | some interrupt =>
          rintro ⟨failed, first⟩
          refine ⟨(congrArg Trace.ending (part taken within)).trans failed, ?_⟩
          intro shorter before other
          rw [part shorter (before.trans within)]
          exact first shorter before other }

section Steps

variable (clean : (pass []).ending = none)

include clean

/-- A first entry that is taken without a failure is taken before all the others. -/
theorem reaches_cons {entry : Placed Row} {taken : List (Placed Row)}
    (same : ∀ rows, (pass (entry.item :: rows)).ending = (next rows).ending)
    (reaches : Reaches next entries taken) : Reaches pass (entry :: entries) (entry :: taken) := by
  obtain ⟨within, stops⟩ := reaches
  refine ⟨(List.cons_prefix_cons).mpr ⟨rfl, within⟩, ?_⟩
  have ends : (pass (all (entry :: entries))).ending = (next (all entries)).ending := same _
  rw [ends]
  revert stops
  cases (next (all entries)).ending with
  | none => exact congrArg (entry :: ·)
  | some interrupt =>
      rintro ⟨failed, first⟩
      refine ⟨(same _).trans failed, ?_⟩
      intro shorter before other
      cases shorter with
      | nil => exact clean
      | cons head tail =>
          obtain ⟨rfl, within⟩ := List.cons_prefix_cons.mp before
          exact (same _).trans (first tail within fun equal => other (congrArg _ equal))

variable (through : PassesThrough next entries given)

include through

/-- A row of the original list that only moves the pass on. -/
theorem silent_passes_through (turns : ∀ rows, pass (row :: rows) = next rows) :
    PassesThrough pass (⟨row, false⟩ :: entries) given where
  gives := by rw [all_cons, turns, through.gives]
  same_rows := by rw [originals_kept, turns, through.same_rows]
  same_ending := by rw [all_cons, originals_kept, turns, turns, through.same_ending]
  at_once := by
    intro earlier last later same
    obtain ⟨taken, left, rfl, others, all⟩ := through.at_once earlier last later same
    exact ⟨⟨row, false⟩ :: taken, left, rfl, others, all⟩
  complete := by
    obtain ⟨taken, reaches, all⟩ := through.complete
    exact ⟨⟨row, false⟩ :: taken, reaches_cons clean (fun rows => by rw [turns]) reaches, all⟩

/-- A row of the original list with which the pass gives a row. -/
theorem giving_passes_through
    (turns : ∀ rows, pass (row :: rows) = (next rows).cons ⟨made, rows⟩) :
    PassesThrough pass (⟨row, false⟩ :: entries) (⟨⟨made, all entries⟩, false⟩ :: given) where
  gives := by
    rw [all_cons, turns, all_cons, ← through.gives]
    rfl
  same_rows := by
    rw [originals_kept, originals_kept, turns, List.map_cons, through.same_rows]
    rfl
  same_ending := by
    rw [all_cons, originals_kept, turns, turns]
    exact through.same_ending
  at_once := by
    intro earlier last later same
    cases earlier with
    | nil =>
        cases same
        exact ⟨[⟨row, false⟩], entries, rfl, rfl, rfl⟩
    | cons first earlier =>
        cases same
        obtain ⟨taken, left, rfl, others, all⟩ := through.at_once earlier last later rfl
        exact ⟨⟨row, false⟩ :: taken, left, rfl, others, all⟩
  complete := by
    obtain ⟨taken, reaches, all⟩ := through.complete
    refine ⟨⟨row, false⟩ :: taken, reaches_cons clean (fun rows => ?_) reaches, all⟩
    rw [turns]
    rfl

omit through in
/-- An inserted row that is given as it is and leaves the pass where it was. -/
theorem inserted_passes_through (through : PassesThrough pass entries given)
    (turns : ∀ rows, pass (row :: rows) = (pass rows).cons ⟨row, rows⟩) :
    PassesThrough pass (⟨row, true⟩ :: entries) (⟨⟨row, all entries⟩, true⟩ :: given) where
  gives := by
    rw [all_cons, turns, all_cons, ← through.gives]
    rfl
  same_rows := through.same_rows
  same_ending := by
    rw [all_cons, originals_inserted, turns]
    exact through.same_ending
  at_once := by
    intro earlier last later same
    cases earlier with
    | nil =>
        cases same
        exact ⟨[⟨row, true⟩], entries, rfl, rfl, rfl⟩
    | cons first earlier =>
        cases same
        obtain ⟨taken, left, rfl, others, all⟩ := through.at_once earlier last later rfl
        exact ⟨⟨row, true⟩ :: taken, left, rfl, others, congrArg (row :: ·) all⟩
  complete := by
    obtain ⟨taken, reaches, all⟩ := through.complete
    refine ⟨⟨row, true⟩ :: taken, reaches_cons clean (fun rows => ?_) reaches,
      congrArg (row :: ·) all⟩
    rw [turns]
    rfl

end Steps

end Passing

namespace Grouping

variable {catalog : Catalog} {plan : GroupingPlan} {fresh : List Accumulator}

theorem emissions_end (catalog : Catalog) (plan : GroupingPlan) (fresh : List Accumulator)
    (unused : Nat) (open? : Option Run) :
    (emissions catalog plan fresh unused open? []).ending = none ∧
      ∀ emitted ∈ (emissions catalog plan fresh unused open? []).given, emitted.left = [] := by
  unfold emissions lastly
  cases open? with
  | some run => exact ⟨rfl, fun _ among => by rw [List.mem_singleton.mp among]⟩
  | none =>
      dsimp only
      split
      · exact ⟨rfl, fun _ among => by rw [List.mem_singleton.mp among]⟩
      · exact ⟨rfl, fun _ among => by cases among⟩

/-- Whatever run is open, inserted rows of other types pass through: by induction on the entries,
one case for each thing that a row of the input type can do. -/
theorem emissions_pass_through {entries : List (Placed Row)}
    (foreign : ∀ entry ∈ entries, entry.inserted = true →
      entry.item.type.same plan.inputType = false) (unused : Nat) (open? : Option Run) :
    ∃ given, PassesThrough (emissions catalog plan fresh unused open?) entries given := by
  induction entries generalizing unused open? with
  | nil =>
      obtain ⟨clean, done⟩ := emissions_end catalog plan fresh unused open?
      exact ⟨_, last_passes_through clean done⟩
  | cons entry entries induction =>
      have clean := (emissions_end catalog plan fresh unused open?).1
      have others := fun member among => foreign member (List.mem_cons_of_mem entry among)
      obtain ⟨row, inserted⟩ := entry
      cases own : row.type.same plan.inputType with
      | false =>
          obtain ⟨given, through⟩ := induction others unused open?
          cases inserted with
          | true =>
              exact ⟨_, inserted_passes_through clean through fun _ => emissions_foreign own⟩
          | false =>
              exact ⟨_, giving_passes_through clean through fun _ => emissions_foreign own⟩
      | true =>
          cases inserted with
          | true => exact absurd (foreign _ List.mem_cons_self rfl) (by simp [own])
          | false =>
              rcases turned : Run.turn catalog plan fresh open? row.view with
                ⟨_ | ended, interrupt | run⟩
              · exact ⟨_, silent_passes_through clean (stopped_passes_through interrupt entries)
                  fun rows => by rw [emissions_own own, turned]⟩
              · obtain ⟨given, through⟩ := induction others unused (some run)
                exact ⟨_, silent_passes_through clean through
                  fun rows => by rw [emissions_own own, turned]⟩
              · exact ⟨_, giving_passes_through clean (stopped_passes_through interrupt entries)
                  fun rows => by rw [emissions_own own, turned]⟩
              · obtain ⟨given, through⟩ := induction others (unused + 1) (some run)
                exact ⟨_, giving_passes_through clean through
                  fun rows => by rw [emissions_own own, turned]⟩

end Grouping

namespace Session

open Placed

/-- Whatever a session did before, an aggregation over rows into which rows of other types were
inserted gives the inserted rows that it takes, each at once, and for the others exactly what it
gives without them, failures included. -/
theorem inserted_rows_pass_through {session : Session} (reached : session.Reached fun _ => True)
    {name : String} {slice : Nat} {type out : RowType} {keys : Nat} {aggregates : List Aggregate}
    {entries : List (Placed Row)}
    (offered : session.plans.get? name =
      some (.aggregate (.values slice type (all entries)) out keys aggregates))
    (foreign : ∀ entry ∈ entries, entry.inserted = true → entry.item.type.same type = false)
    (context : Context) (bindings : Bindings) :
    ∃ given, PassesThrough
      (fun rows => (Plan.aggregate (.values slice type rows) out keys aggregates).trace context
        bindings session.engine) entries given := by
  obtain ⟨census, covered⟩ := reached.covered
  have listed : ∀ row ∈ all entries, row.Listed census :=
    Table.every_get covered.names.plans offered
  cases ready : Plan.startAccumulators aggregates with
  | error error =>
      simp only [Plan.trace_refused bindings ready]
      exact ⟨_, stopped_passes_through _ entries⟩
  | ok started =>
      cases disturbed : (session.engine.journal.of context).cancelled with
      | true =>
          simp only [Plan.trace_cancelled bindings ready disturbed]
          exact ⟨_, stopped_passes_through _ entries⟩
      | false =>
          have sound : session.engine.journal.Sound context census :=
            ⟨disturbed, covered.engine.faithful⟩
          have passes : ∃ given, PassesThrough (Grouping.emissions context.catalog
              ⟨type, out, keys⟩ started session.engine.nextId none) entries given :=
            Grouping.emissions_pass_through foreign session.engine.nextId none
          obtain ⟨given, through⟩ := passes
          refine ⟨given, passes_through_congr (fun rows within => ?_) through⟩
          have some : ∀ row ∈ rows, row.Listed census :=
            fun row among => listed row (within.subset among)
          exact Plan.trace_eq sound some bindings ready

end Session

/-! Grouping two flags with marks before and between them. -/

namespace Marked

open Session Placed

def session : Session :=
  Counting.new.after [.type "flag" [.notNull .boolean], .type "mark" [.notNull .text],
    .plan "flags" (.aggregate (.values "flag" [.ofType "mark" [.text "first"],
      .ofValues [.boolean true], .ofType "mark" [.text "second"], .ofValues [.boolean false]])
      1 [])]

def flag : RowType := ⟨1, [.notNull .boolean]⟩

def mark : RowType := ⟨2, [.notNull .text]⟩

def entries : List (Placed Row) :=
  [⟨.stored 2 mark [.text "first"], true⟩, ⟨.stored 3 flag [.boolean true], false⟩,
    ⟨.stored 4 mark [.text "second"], true⟩, ⟨.stored 5 flag [.boolean false], false⟩]

def pass (rows : List Row) : Trace :=
  (Plan.aggregate (.values 6 flag rows) ⟨3, [.notNull .boolean]⟩ 1 []).trace session.context
    .empty session.engine

theorem marks_pass_through :
    session.Reached (fun _ => True) ∧
    (pass (all entries)).given.map (fun emitted => (emitted.row.id, emitted.left.length)) =
      [(2, 3), (4, 1), (7, 0), (8, 0)] ∧
    ∃ given, PassesThrough pass entries given := by
  have reached : session.Reached fun _ => True := Counting.new_reached.after _
  have offered : session.plans.get? "flags" = some (.aggregate (.values 6 flag (all entries))
      ⟨3, [.notNull .boolean]⟩ 1 []) := rfl
  refine ⟨reached, by decide +kernel, inserted_rows_pass_through reached offered ?_ _ _⟩
  decide

end Marked

end QueryExec
