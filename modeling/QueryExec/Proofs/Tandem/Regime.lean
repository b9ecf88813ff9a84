import Mathlib.Data.List.Forall2
import QueryExec.Cursor.Protocol
import QueryExec.Proofs.Action.Tandem
import QueryExec.Proofs.Cursor.Leaf

/-!
What two runs of one cursor have to do with each other. A regime says which rows stand for each
other, under which contexts the two run, what holds of the journal and of the rest of the engine
and what may stop the runs. As rows are made more is known of them, so all is relative to a world
that grows. With two equal runs a regime is an invariant; with two contexts it compares them.
-/

namespace QueryExec

open QueryExec.Action

/-- A failure about a value that did not convert. -/
def Interrupt.isCast : Interrupt → Bool
  | .failed (.cast _) => true
  | .failed (.value _ (.cast _)) => true
  | _ => false

/-- States with a journal. -/
class Journaled (state : Type) where
  journal : state → Journal

instance : Journaled Engine :=
  ⟨Engine.journal⟩

instance {cursor : Type} : Journaled (cursor × Engine) :=
  ⟨fun pair => pair.2.journal⟩

structure Regime where
  World : Type
  Within : World → World → Prop
  /-- What may stop the first run. -/
  calm : Interrupt → Prop
  /-- Whether the second run may stop alone. -/
  parts : Prop
  first : Context
  second : Context
  journal : World → Company → Journal → Prop
  /-- What holds of the engine apart from its journal. -/
  rest : World → Engine → Prop
  rows : World → Row → Row → Prop
  bound : World → Bindings → Prop
  /-- The values that are read of a column. -/
  value : RowType → Nat → Datum → Prop
  /-- The values that rows of a type are made of. -/
  made : RowType → List Datum → Prop

namespace Regime

variable (regime : Regime)

/-- The journals are one as long as the runs are together. -/
def Journals (world : regime.World) (company : Company) (left right : Journal) : Prop :=
  (company = .together → left = right) ∧ regime.journal world company left

/-- The engines are one as long as the runs are together. -/
def Engines (world : regime.World) (company : Company) (left right : Engine) : Prop :=
  (company = .together → left = right) ∧ regime.journal world company left.journal ∧
    regime.rest world left

/-- Cursors in their engines. -/
def States {cursor : Type} (related : regime.World → cursor → cursor → Prop)
    (world : regime.World) (company : Company) (left right : cursor × Engine) : Prop :=
  related world left.1 right.1 ∧ regime.Engines world company left.2 right.2

def RowPaired (world : regime.World) : Option Row → Option Row → Prop :=
  Option.Rel (regime.rows world)

def BindingsPaired (world : regime.World) (left right : Option Bindings) : Prop :=
  left = right ∧ ∀ bindings ∈ left, regime.bound world bindings

variable {state result other : Type} [Journaled state]

/-- What a stop leaves: related states or, where something outside of a row was read, at least a
journal as it may be. -/
def Halted (halts : regime.World → Company → state → state → Prop) (world : regime.World)
    (company : Company) (interrupt : Interrupt) (left right : state) : Prop :=
  halts world company left right ∨
    interrupt = .indexOutOfRange ∧ regime.journal world company (Journaled.journal left)

/-- The runs end in a later world. -/
def Ends (world : regime.World) (parts : Prop) (company : Company) (left right : state)
    (first second : Action state result)
    (gives : regime.World → Company → result → result → state → state → Prop)
    (halts : regime.World → Company → state → state → Prop) : Prop :=
  Tandem regime.calm parts company left right first second
    (fun company value partner after last =>
      ∃ later, regime.Within world later ∧ gives later company value partner after last)
    fun company interrupt after last =>
      ∃ later, regime.Within world later ∧ regime.Halted halts later company interrupt after last

/-- From states that are related in one way two steps end in states that are related in another,
and stop in states that are related in a third. -/
def Leads (before after halts : regime.World → Company → state → state → Prop)
    (world : regime.World) (parts : Prop) (first second : Action state result)
    (gives : regime.World → result → result → Prop) : Prop :=
  ∀ company left right, before world company left right →
    regime.Ends world parts company left right first second
      (fun later company value partner reached last =>
        after later company reached last ∧ gives later value partner) halts

/-- From related states two steps end in related states. -/
abbrev Pairs (states : regime.World → Company → state → state → Prop) (world : regime.World)
    (parts : Prop) (first second : Action state result)
    (gives : regime.World → result → result → Prop) : Prop :=
  regime.Leads states states states world parts first second gives

/-- Two steps on journals, which make no rows. -/
def Reads (world : regime.World) (parts : Prop) (first second : Action Journal result)
    (gives : result → result → Prop) : Prop :=
  ∀ company left right, regime.Journals world company left right →
    Tandem regime.calm parts company left right first second
      (fun company value partner after last =>
        regime.Journals world company after last ∧ gives value partner)
      fun company _ after last => regime.Journals world company after last

/-- What a regime has to do with the steps of engines. -/
structure Lawful : Prop where
  refl : ∀ world, regime.Within world world
  trans : ∀ {first second third}, regime.Within first second → regime.Within second third →
    regime.Within first third
  calm : ∀ error, (Interrupt.failed error).isCast = false → regime.calm (.failed error)
  catalog : regime.first.catalog = regime.second.catalog
  rows_later : ∀ {world later left right}, regime.Within world later →
    regime.rows world left right → regime.rows later left right
  rows_type : ∀ {world left right}, regime.rows world left right → left.type = right.type
  bound_later : ∀ {world later bindings}, regime.Within world later →
    regime.bound world bindings → regime.bound later bindings
  bound_empty : ∀ world, regime.bound world .empty
  rest_journal : ∀ {world engine} journal, regime.rest world engine →
    regime.rest world { engine with journal }
  rest_noted : ∀ {world engine} call, regime.rest world engine →
    regime.rest world (engine.noted call)
  new_row : ∀ world {type values}, regime.made type values →
    regime.Pairs regime.Engines world False (Engine.newRow type values)
      (Engine.newRow type values) regime.rows
  tap : ∀ world name,
    regime.Reads world False (regime.first.tap name) (regime.second.tap name) fun _ _ => True
  check : ∀ world, regime.Reads world False regime.first.checkCancelled
    regime.second.checkCancelled fun _ _ => True
  read : ∀ {world left right} column, regime.rows world left right →
    regime.Reads world regime.parts (left.read column) (right.read column) fun value partner =>
      value = partner ∧ regime.value left.type column value

section Rules

variable {regime} {world : regime.World} {parts : Prop} {company : Company} {left right : state}
  {first second : Action state result}
  {gives : regime.World → Company → result → result → state → state → Prop}
  {halts : regime.World → Company → state → state → Prop}

theorem ends_imp {given : regime.World → Company → result → result → state → state → Prop}
    {halted : regime.World → Company → state → state → Prop}
    (ends : regime.Ends world parts company left right first second given halted)
    (implies : ∀ later company value partner after last, regime.Within world later →
      given later company value partner after last → gives later company value partner after last)
    (stops : ∀ later company after last, regime.Within world later →
      halted later company after last → halts later company after last) :
    regime.Ends world parts company left right first second gives halts := by
  refine tandem_weaken ends ?_ ?_
  · rintro company value partner after last ⟨later, within, held⟩
    exact ⟨later, within, implies _ _ _ _ _ _ within held⟩
  · rintro company interrupt after last ⟨later, within, held⟩
    exact ⟨later, within, held.imp_left (stops _ _ _ _ within)⟩

theorem ends_steady (ends : regime.Ends world False company left right first second gives halts) :
    regime.Ends world parts company left right first second gives halts :=
  tandem_steady ends

variable (lawful : regime.Lawful)

include lawful

/-- What ends well as seen from a later world ends well as seen from an earlier one. -/
theorem ends_from {later : regime.World} (within : regime.Within world later)
    (ends : regime.Ends later parts company left right first second gives halts) :
    regime.Ends world parts company left right first second gives halts := by
  refine tandem_weaken ends ?_ ?_
  · rintro company value partner after last ⟨final, further, held⟩
    exact ⟨final, lawful.trans within further, held⟩
  · rintro company interrupt after last ⟨final, further, held⟩
    exact ⟨final, lawful.trans within further, held⟩

theorem ends_pure {value partner : result} (given : gives world company value partner left right) :
    regime.Ends world parts company left right (pure value) (pure partner) gives halts :=
  tandem_pure ⟨world, lawful.refl world, given⟩

theorem ends_fail {error : QueryError} (plain : (Interrupt.failed error).isCast = false)
    (held : halts world company left right) :
    regime.Ends world parts company left right (fail error) (fail error) gives halts :=
  tandem_fail (lawful.calm error plain) ⟨world, lawful.refl world, .inl held⟩

theorem ends_bind {middle : regime.World → Company → other → other → state → state → Prop}
    {begun started : Action state other} {next following : other → Action state result}
    (begin : regime.Ends world parts company left right begun started middle halts)
    (continues : ∀ later company value partner after last, regime.Within world later →
      middle later company value partner after last →
      regime.Ends later parts company after last (next value) (following partner) gives halts) :
    regime.Ends world parts company left right (begun >>= next) (started >>= following) gives
      halts := by
  refine tandem_bind begin ?_
  rintro company value partner after last ⟨later, within, held⟩
  exact ends_from lawful within (continues later company value partner after last within held)

theorem ends_of_except {outcome : Except QueryError result}
    (given : ∀ value, outcome = .ok value → gives world company value value left right)
    (stopped : ∀ error, outcome = .error error →
      regime.calm (.failed error) ∧ halts world company left right) :
    regime.Ends world parts company left right (ofExcept outcome) (ofExcept outcome) gives
      halts := by
  refine tandem_of_except (fun value same => ⟨world, lawful.refl world, given value same⟩) ?_
  intro error same
  exact ⟨(stopped error same).1, world, lawful.refl world, .inl (stopped error same).2⟩

theorem ends_on_failure {cleanup cleaning : Action state Unit}
    {raw : regime.World → Company → state → state → Prop}
    (tells : ∀ later company after last, raw later company after last →
      regime.journal later company (Journaled.journal after))
    (ends : regime.Ends world parts company left right first second gives raw)
    (cleans : ∀ later company after last, regime.Within world later →
      raw later company after last →
      regime.Ends later False company after last cleanup cleaning
        (fun final company _ _ => halts final company) halts) :
    regime.Ends world parts company left right (onFailure cleanup first)
      (onFailure cleaning second) gives halts := by
  refine tandem_on_failure ?_ ?_ ends
  · rintro company error after last ⟨later, within, held | ⟨impossible, _⟩⟩
    case inr => cases impossible
    refine tandem_weaken (ends_from lawful within (cleans later company after last within held))
      ?_ ?_
    · rintro company _ _ left right ⟨final, further, halted⟩
      exact ⟨final, further, .inl halted⟩
    · rintro company (_ | _) left right ⟨final, further, halted⟩
      · exact ⟨final, further, halted.imp_right fun outside => by cases outside.1⟩
      · exact ⟨final, further, halted⟩
  · rintro company after last ⟨later, within, held | outside⟩
    · exact ⟨later, within, .inr ⟨rfl, tells _ _ _ _ held⟩⟩
    · exact ⟨later, within, .inr outside⟩

end Rules

section Steps

variable {regime} {states before after halts : regime.World → Company → state → state → Prop}
  {world : regime.World} {parts : Prop} {gives : regime.World → result → result → Prop}

theorem leads_steady {first second : Action state result}
    (leads : regime.Leads before after halts world False first second gives) :
    regime.Leads before after halts world parts first second gives :=
  fun company left right held => ends_steady (leads company left right held)

theorem leads_imp {earlier reached halted : regime.World → Company → state → state → Prop}
    {given : regime.World → result → result → Prop} {first second : Action state result}
    (leads : regime.Leads earlier reached halted world parts first second given)
    (starts : ∀ company left right, before world company left right →
      earlier world company left right)
    (ends : ∀ later company left right, reached later company left right →
      after later company left right)
    (stops : ∀ later company left right, halted later company left right →
      halts later company left right)
    (implies : ∀ later value partner, given later value partner → gives later value partner) :
    regime.Leads before after halts world parts first second gives :=
  fun company left right held => ends_imp (leads company left right (starts _ _ _ held))
    (fun _ _ _ _ _ _ _ last => ⟨ends _ _ _ _ last.1, implies _ _ _ last.2⟩)
    fun _ _ _ _ _ => stops _ _ _ _

variable (lawful : regime.Lawful)

include lawful

theorem leads_pure {value partner : result} (given : gives world value partner) :
    regime.Leads states states halts world parts (pure value) (pure partner) gives :=
  fun _ _ _ held => ends_pure lawful ⟨held, given⟩

/-- An answer where the states may be seen in another way. -/
theorem leads_answer {value partner : result}
    (sees : ∀ company left right, before world company left right → after world company left right)
    (given : gives world value partner) :
    regime.Leads before after halts world parts (pure value) (pure partner) gives :=
  fun company left right held => ends_pure lawful ⟨sees company left right held, given⟩

theorem leads_fail {error : QueryError} (plain : (Interrupt.failed error).isCast = false) :
    regime.Leads states after states world parts (fail error) (fail error) gives :=
  fun _ _ _ held => ends_fail lawful plain held

theorem leads_bind {between : regime.World → Company → state → state → Prop}
    {middle : regime.World → other → other → Prop}
    {begun started : Action state other} {next following : other → Action state result}
    (begin : regime.Leads before between halts world parts begun started middle)
    (continues : ∀ later value partner, regime.Within world later → middle later value partner →
      regime.Leads between after halts later parts (next value) (following partner) gives) :
    regime.Leads before after halts world parts (begun >>= next) (started >>= following) gives :=
  fun company left right held => ends_bind lawful (begin company left right held)
    fun later company value partner reached last within ends =>
      continues later value partner within ends.2 company reached last ends.1

theorem pairs_bind {middle : regime.World → other → other → Prop}
    {begun started : Action state other} {next following : other → Action state result}
    (begin : regime.Pairs states world parts begun started middle)
    (continues : ∀ later value partner, regime.Within world later → middle later value partner →
      regime.Pairs states later parts (next value) (following partner) gives) :
    regime.Pairs states world parts (begun >>= next) (started >>= following) gives :=
  leads_bind lawful begin continues

/-- The same, where what holds in between is said. -/
theorem pairs_then (middle : regime.World → other → other → Prop)
    {begun started : Action state other} {next following : other → Action state result}
    (begin : regime.Pairs states world parts begun started middle)
    (continues : ∀ later value partner, regime.Within world later → middle later value partner →
      regime.Pairs states later parts (next value) (following partner) gives) :
    regime.Pairs states world parts (begun >>= next) (started >>= following) gives :=
  pairs_bind lawful begin continues

/-- The outcomes of an attempt: related values, or one calm error. -/
def Attempted (regime : Regime) (given : result → result → Prop)
    (outcome partner : Except QueryError result) : Prop :=
  match outcome, partner with
  | .ok value, .ok same => given value same
  | .error error, .error same => error = same ∧ regime.calm (.failed error)
  | _, _ => False

omit lawful in
/-- Steps that cannot part may be attempted; an attempt halts only outside of a row. -/
theorem leads_attempt {given : result → result → Prop} {first second : Action state result}
    (tells : ∀ later company left right, after later company left right →
      regime.journal later company (Journaled.journal left))
    (leads : regime.Leads before after after world False first second fun _ => given) :
    regime.Leads before after halts world parts first.attempt second.attempt fun _ =>
      regime.Attempted given := by
  intro company left right held
  refine tandem_attempt (tandem_weaken (leads company left right held) ?_ ?_)
  · rintro later value partner reached last ⟨final, within, ends⟩
    exact ⟨final, within, ends⟩
  · rintro later (error | _) reached last ⟨final, within, ends | ⟨outside, kept⟩⟩
    · exact fun still => ⟨final, within, ends, rfl, still⟩
    · cases outside
    · exact ⟨final, within, .inr ⟨rfl, tells _ _ _ _ ends⟩⟩
    · exact ⟨final, within, .inr ⟨rfl, kept⟩⟩

/-- An attempted outcome is passed on. -/
theorem leads_of_attempted {given : result → result → Prop}
    {outcome partner : Except QueryError result}
    (attempted : regime.Attempted given outcome partner) :
    regime.Leads states states states world parts (ofExcept outcome) (ofExcept partner)
      fun _ => given := by
  rcases outcome with error | value <;> rcases partner with same | partner
  · obtain ⟨rfl, still⟩ := attempted
    exact fun _ _ _ held => tandem_fail still ⟨world, lawful.refl world, .inl held⟩
  · exact attempted.elim
  · exact attempted.elim
  · exact leads_pure lawful attempted

/-- What a failure leaves is cleaned up. -/
theorem leads_on_failure {raw : regime.World → Company → state → state → Prop}
    (tells : ∀ later company left right, raw later company left right →
      regime.journal later company (Journaled.journal left))
    {cleanup cleaning : Action state Unit} {first second : Action state result}
    (cleans : ∀ later, regime.Within world later →
      regime.Leads raw halts halts later False cleanup cleaning fun _ _ _ => True)
    (leads : regime.Leads before after raw world parts first second gives) :
    regime.Leads before after halts world parts (onFailure cleanup first)
      (onFailure cleaning second) gives :=
  fun company left right held => ends_on_failure lawful tells (leads company left right held)
    fun later company reached last within halted =>
      ends_imp (cleans later within company reached last halted)
        (fun _ _ _ _ _ _ _ ends => ends.1) fun _ _ _ _ _ => id

theorem leads_phase_check (call : Call) (phase : Phase) :
    regime.Pairs states world parts (call.check phase) (call.check phase) fun _ _ _ => True := by
  unfold Call.check
  split
  · exact leads_pure lawful trivial
  · exact leads_fail lawful rfl

end Steps

section Journals

variable {regime} {world : regime.World} {parts : Prop} {gives : result → result → Prop}

theorem reads_pure {value partner : result} (given : gives value partner) :
    regime.Reads world parts (pure value) (pure partner) gives :=
  fun _ _ _ held => tandem_pure ⟨held, given⟩

theorem reads_bind {middle : other → other → Prop} {begun started : Action Journal other}
    {next following : other → Action Journal result}
    (begin : regime.Reads world parts begun started middle)
    (continues : ∀ value partner, middle value partner →
      regime.Reads world parts (next value) (following partner) gives) :
    regime.Reads world parts (begun >>= next) (started >>= following) gives := by
  intro company left right held
  refine tandem_bind (begin company left right held) ?_
  exact fun company value partner after last ends =>
    continues value partner ends.2 company after last ends.1

theorem reads_imp {weaker : result → result → Prop} {first second : Action Journal result}
    (reads : regime.Reads world parts first second gives)
    (implies : ∀ value partner, gives value partner → weaker value partner) :
    regime.Reads world parts first second weaker :=
  fun company left right held => tandem_weaken (reads company left right held)
    (fun _ value partner _ _ ends => ⟨ends.1, implies value partner ends.2⟩) fun _ _ _ _ => id

/-- Both runs look at one journal, as long as they are together. -/
theorem reads_look {next following : Journal → Action Journal result}
    (follows : ∀ journal, regime.Reads world parts (next journal) (following journal) gives) :
    regime.Reads world parts (get >>= next) (get >>= following) gives := by
  intro company left right held
  cases company with
  | together =>
      obtain rfl := held.1 rfl
      exact follows left .together left left held
  | alone => exact follows left .alone left right held

theorem reads_modify {step : Journal → Journal}
    (keeps : ∀ company journal, regime.journal world company journal →
      regime.journal world company (step journal)) :
    regime.Reads world parts (modify step) (modify step) fun _ _ => True := by
  intro company left right held
  have stepped : regime.Journals world company (step left) (step right) :=
    ⟨fun together => congrArg step (held.1 together), keeps company left held.2⟩
  cases company with
  | together => exact .inl ⟨stepped, trivial⟩
  | alone => exact ⟨(), step right, stepped, trivial⟩

theorem reads_fail {error : QueryError} (still : regime.calm (.failed error)) :
    regime.Reads world parts (fail error) (fail error) gives :=
  fun _ _ _ held => tandem_fail still held

theorem reads_index (still : regime.calm .indexOutOfRange) (items : List result) (position : Nat) :
    regime.Reads world parts (index items position) (index items position)
      fun value partner => value = partner ∧ items[position]? = some value := by
  unfold index
  split
  next value found => exact reads_pure ⟨rfl, found⟩
  next => exact fun _ _ _ held => tandem_throw still held

/-- Failures that are scoped to a column are as calm as before. -/
theorem reads_at_column (column : Nat)
    (still : ∀ error, regime.calm (.failed error) → regime.calm (.failed (error.atColumn column)))
    {first second : Action Journal result} (reads : regime.Reads world parts first second gives) :
    regime.Reads world parts (first.atColumn column) (second.atColumn column) gives := by
  intro company left right held
  exact tandem_at_column column still (reads company left right held) fun _ _ _ _ => id

/-- Steps for each member of a list answer a list. -/
theorem reads_map {item : Type} {step following : item → Action Journal result} (items : List item)
    {each : item → result → Prop}
    (reads : ∀ member ∈ items, regime.Reads world parts (step member) (following member)
      fun value partner => value = partner ∧ each member value) :
    regime.Reads world parts (items.mapM step) (items.mapM following) fun values partners =>
      values = partners ∧ List.Forall₂ each items values := by
  induction items with
  | nil => exact reads_pure ⟨rfl, .nil⟩
  | cons first rest induction =>
      rw [List.mapM_cons, List.mapM_cons]
      refine reads_bind (reads first List.mem_cons_self) ?_
      rintro value _ ⟨rfl, own⟩
      refine reads_bind (induction fun member listed =>
        reads member (List.mem_cons_of_mem _ listed)) ?_
      rintro values _ ⟨rfl, all⟩
      exact reads_pure ⟨rfl, .cons own all⟩

variable (lawful : regime.Lawful)

include lawful

/-- Both runs read the same columns of their rows, with the same values. -/
theorem reads_columns {left right : Row} (rows : regime.rows world left right)
    (columns : List Nat) :
    regime.Reads world regime.parts (columns.mapM left.read) (columns.mapM right.read)
      fun values partners =>
        values = partners ∧ List.Forall₂ (regime.value left.type) columns values :=
  reads_map columns fun column _ => lawful.read column rows

theorem reads_all {left right : Row} (rows : regime.rows world left right) :
    regime.Reads world regime.parts left.readAll right.readAll Eq := by
  unfold Row.readAll
  rw [← lawful.rows_type rows]
  exact reads_imp (reads_columns lawful rows _) fun _ _ => And.left

/-- A step on the journal makes no rows. -/
theorem pairs_in_journal {first second : Action Journal result}
    (reads : regime.Reads world parts first second gives) :
    regime.Pairs regime.Engines world parts (Engine.inJournal first) (Engine.inJournal second)
      fun _ => gives := by
  intro company left right held
  have replaced {later : Company} {last partner : Journal}
      (still : later = .together → company = .together)
      (journals : regime.Journals world later last partner) :
      regime.Engines world later { left with journal := last } { right with journal := partner } :=
    ⟨fun together => by rw [held.1 (still together), journals.1 together], journals.2,
      lawful.rest_journal last held.2.2⟩
  have journals : regime.Journals world company left.journal right.journal :=
    ⟨fun together => congrArg Engine.journal (held.1 together), held.2.1⟩
  apply tandem_on_part
  refine tandem_weaken (tandem_company (reads company _ _ journals)) ?_ ?_
  · rintro later value partner after last ⟨still, journals, given⟩
    exact ⟨world, lawful.refl world, replaced still journals, given⟩
  · rintro later interrupt after last ⟨still, journals⟩
    exact ⟨world, lawful.refl world, .inl (replaced still journals)⟩

end Journals

section Engines

variable {regime} {world : regime.World} {parts : Prop}
  {gives : regime.World → result → result → Prop}

/-- Both runs look at one engine, as long as they are together. -/
theorem pairs_look {next following : Engine → Action Engine result}
    (follows : ∀ engine, regime.rest world engine →
      regime.Pairs regime.Engines world parts (next engine) (following engine) gives) :
    regime.Pairs regime.Engines world parts (get >>= next) (get >>= following) gives := by
  intro company left right held
  cases company with
  | together =>
      obtain rfl := held.1 rfl
      exact follows left held.2.2 .together left left held
  | alone => exact follows left held.2.2 .alone left right held

variable (lawful : regime.Lawful)

include lawful

theorem pairs_note (call : LeafCall) :
    regime.Pairs regime.Engines world parts (Engine.note call) (Engine.note call)
      fun _ _ _ => True := by
  intro company left right held
  have noted : regime.Engines world company (left.noted call) (right.noted call) :=
    ⟨fun together => congrArg (Engine.noted · call) (held.1 together), held.2.1,
      lawful.rest_noted call held.2.2⟩
  cases company with
  | alone => exact ⟨(), right.noted call, world, lawful.refl world, noted, trivial⟩
  | together => exact .inl ⟨world, lawful.refl world, noted, trivial⟩

omit lawful in
/-- Both runs make a row under one identity, with which the world may grow. -/
theorem pairs_make {make making : Nat → Row}
    (makes : ∀ engine, regime.rest world engine → ∃ later, regime.Within world later ∧
      (∀ company journal, regime.journal world company journal →
        regime.journal later company journal) ∧
      regime.rest later { engine with nextId := engine.nextId + 1 } ∧
      regime.rows later (make engine.nextId) (making engine.nextId)) :
    regime.Pairs regime.Engines world parts (return make (← Engine.freshId))
      (return making (← Engine.freshId)) regime.rows := by
  intro company left right held
  obtain ⟨later, within, tells, rest, made⟩ := makes left held.2.2
  cases company with
  | together =>
      obtain rfl := held.1 rfl
      exact .inl ⟨later, within, ⟨fun _ => rfl, tells _ _ held.2.1, rest⟩, made⟩
  | alone =>
      exact ⟨making left.nextId, right, later, within, ⟨nofun, tells _ _ held.2.1, rest⟩, made⟩

theorem pairs_inject_fault (call : LeafCall) :
    regime.Pairs regime.Engines world parts (Engine.injectFault call) (Engine.injectFault call)
      fun _ _ _ => True := by
  apply pairs_look
  intro engine _
  split
  · split
    · exact leads_fail lawful rfl
    · exact leads_pure lawful trivial
  · exact leads_pure lawful trivial

/-- The rows of a stored table stand for themselves. -/
theorem pairs_load_table {name : String}
    (stored : ∀ world engine table, regime.rest world engine →
      engine.store.table name = .ok table → ∀ row ∈ table.rows, regime.rows world row row) :
    regime.Pairs regime.Engines world parts (Scan.loadTable name) (Scan.loadTable name)
      fun later => List.Forall₂ (regime.rows later) := by
  unfold Scan.loadTable
  refine pairs_then lawful (fun later table same => table = same ∧
    ∀ row ∈ table.rows, regime.rows later row row) ?_ ?_
  · apply pairs_look
    intro engine rest company left right held
    refine ends_of_except lawful
      (fun table found => ⟨held, rfl, stored world engine table rest found⟩)
      fun error missing => ⟨lawful.calm error ?_, held⟩
    unfold Store.table at missing
    split at missing <;> cases missing
    rfl
  · rintro later table _ _ ⟨rfl, rows⟩
    exact leads_pure lawful (List.forall₂_same.mpr rows)

end Engines

section Cursors

variable {regime} {cursor : Type} {related : regime.World → cursor → cursor → Prop}
  {world : regime.World} {parts : Prop} {gives : regime.World → result → result → Prop}

theorem leads_state
    {after halts : regime.World → Company → cursor × Engine → cursor × Engine → Prop}
    {next following : cursor → CursorAction cursor result}
    (follows : ∀ left right, related world left right →
      regime.Leads (regime.States related) after halts world parts (next left) (following right)
        gives) :
    regime.Leads (regime.States related) after halts world parts (CursorAction.state >>= next)
      (CursorAction.state >>= following) gives :=
  fun company left right held => follows left.1 right.1 held.1 company left right held

/-- The same, remembering what was seen. -/
theorem leads_look {after halts : regime.World → Company → cursor × Engine → cursor × Engine → Prop}
    {next following : cursor → CursorAction cursor result}
    (follows : ∀ left right, related world left right →
      regime.Leads (regime.States fun later below beside =>
          related later below beside ∧ below = left ∧ beside = right) after halts world parts
        (next left) (following right) gives) :
    regime.Leads (regime.States related) after halts world parts (CursorAction.state >>= next)
      (CursorAction.state >>= following) gives :=
  fun company left right held =>
    follows left.1 right.1 held.1 company left right ⟨⟨held.1, rfl, rfl⟩, held.2⟩

/-- Related cursors have a journal as it may be. -/
theorem states_journal {later : regime.World} {company : Company} {left right : cursor × Engine}
    (held : regime.States related later company left right) :
    regime.journal later company (Journaled.journal left) :=
  held.2.2.1

/-- A change of the cursors does not halt. -/
theorem leads_change (lawful : regime.Lawful)
    {changed : regime.World → cursor → cursor → Prop}
    {halts : regime.World → Company → cursor × Engine → cursor × Engine → Prop}
    {step following : cursor → cursor}
    (keeps : ∀ left right, related world left right → changed world (step left) (following right)) :
    regime.Leads (regime.States related) (regime.States changed) halts world parts
      (CursorAction.change step) (CursorAction.change following) fun _ _ _ => True := by
  intro company left right held
  have ends : regime.States changed world company (step left.1, left.2)
      (following right.1, right.2) :=
    ⟨keeps _ _ held.1, held.2⟩
  cases company with
  | alone => exact ⟨(), _, world, lawful.refl world, ends, trivial⟩
  | together => exact .inl ⟨world, lawful.refl world, ends, trivial⟩

/-- Cursors that are related stay so in later worlds. -/
def Lasting {thing : Type} (related : regime.World → thing → thing → Prop) : Prop :=
  ∀ world later left right, regime.Within world later → related world left right →
    related later left right

theorem pairs_in_engine (lasting : regime.Lasting related) {first second : Action Engine result}
    (pairs : regime.Pairs regime.Engines world parts first second gives) :
    regime.Pairs (regime.States related) world parts (CursorAction.inEngine first)
      (CursorAction.inEngine second) gives := by
  intro company left right held
  unfold CursorAction.inEngine onSecond
  apply tandem_on_part
  refine tandem_weaken (pairs company left.2 right.2 held.2) ?_ ?_
  · rintro company value partner after last ⟨later, within, engines, given⟩
    exact ⟨later, within, ⟨lasting _ _ _ _ within held.1, engines⟩, given⟩
  · rintro company interrupt after last ⟨later, within, engines | outside⟩
    · exact ⟨later, within, .inl ⟨lasting _ _ _ _ within held.1, engines⟩⟩
    · exact ⟨later, within, .inr outside⟩

theorem pairs_reading (lawful : regime.Lawful) (lasting : regime.Lasting related)
    {first second : Action Journal result} {given : result → result → Prop}
    (reads : regime.Reads world parts first second given) :
    regime.Pairs (regime.States related) world parts (CursorAction.inJournal first)
      (CursorAction.inJournal second) fun _ => given :=
  pairs_in_engine lasting (pairs_in_journal lawful reads)

end Cursors

/-- The calls of two protocols keep their cursors related and answer alike. Only `next` computes
anything, so only there the runs may part. -/
structure Paired {cursor : Type} (first second : Protocol cursor)
    (related : regime.World → cursor → cursor → Prop) : Prop where
  lasting : regime.Lasting related
  phase : ∀ {world left right}, related world left right → first.phase left = second.phase right
  remaining : ∀ {world left right}, related world left right →
    first.remaining left = second.remaining right
  passes : ∀ {world left right}, related world left right →
    first.passes left = second.passes right
  openPass : ∀ world, regime.Pairs (regime.States related) world False first.openPass
    second.openPass fun _ _ _ => True
  next : ∀ world, regime.Pairs (regime.States related) world regime.parts first.next second.next
    regime.RowPaired
  close : ∀ world, regime.Pairs (regime.States related) world False first.close second.close
    fun _ _ _ => True
  destroy : ∀ world, regime.Pairs (regime.States related) world False first.destroy second.destroy
    fun _ _ _ => True
  openBindings : ∀ world, regime.Pairs (regime.States related) world False first.openBindings
    second.openBindings fun _ _ _ => True
  nextBindings : ∀ world, regime.Pairs (regime.States related) world False first.nextBindings
    second.nextBindings regime.BindingsPaired
  closeBindings : ∀ world, regime.Pairs (regime.States related) world False first.closeBindings
    second.closeBindings fun _ _ _ => True
  cancelBindings : ∀ {world company} (bindings : Bindings) (left right : cursor × Engine),
    regime.States related world company left right →
      regime.States related world company (first.cancelBindings bindings left)
        (second.cancelBindings bindings right)

section Calls

variable {regime} {cursor : Type} {related : regime.World → cursor → cursor → Prop}
  {world : regime.World} {first second : Protocol cursor} (lawful : regime.Lawful)
  (paired : regime.Paired first second related)

include lawful paired

theorem pairs_close_active :
    regime.Pairs (regime.States related) world False first.closeActive second.closeActive
      fun _ _ _ => True := by
  apply leads_state
  intro left right held
  rw [paired.phase held]
  split
  · exact paired.close world
  · exact leads_pure lawful trivial

theorem pairs_destroy_once :
    regime.Pairs (regime.States related) world False first.destroyOnce second.destroyOnce
      fun _ _ _ => True := by
  apply leads_state
  intro left right held
  rw [paired.phase held]
  split
  · exact leads_pure lawful trivial
  · exact paired.destroy world

end Calls

end Regime

end QueryExec
