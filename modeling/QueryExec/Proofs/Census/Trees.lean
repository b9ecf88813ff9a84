import QueryExec.Proofs.Census.Cursors
import QueryExec.Proofs.Plan

/-!
Cursor trees enrol. Every row and binding that a tree keeps is listed, down to the leaf: the rows
that it may be given, those that it still has to give and the bindings of its source. So it is with
a new cursor, and every call keeps it so.
-/

namespace QueryExec

open QueryExec.Action

/-- Every binding that a source can deliver is such. -/
def BindingSource.All (holds : Bindings → Prop) : BindingSource → Prop
  | .single bindings _ => holds bindings
  | .several all pending =>
      (∀ bindings ∈ all, holds bindings) ∧ ∀ bindings ∈ pending, holds bindings

/-- Every binding that a source can deliver is listed. -/
abbrev BindingSource.Listed (census : Census) (source : BindingSource) : Prop :=
  source.All fun bindings => bindings.Listed census

namespace BindingSource

variable {holds : Bindings → Prop} {source : BindingSource}

theorem All.imp {other : Bindings → Prop} (all : source.All holds)
    (implies : ∀ bindings, holds bindings → other bindings) : source.All other := by
  cases source with
  | single bindings state => exact implies bindings all
  | several every pending =>
      exact ⟨fun bindings member => implies bindings (all.1 bindings member),
        fun bindings member => implies bindings (all.2 bindings member)⟩

theorem Listed.later {census later : Census} (within : census.Within later)
    (listed : source.Listed census) : source.Listed later :=
  listed.imp fun _ held => held.later within

theorem all_open_all (all : source.All holds) : source.openAll.All holds := by
  cases source with
  | single bindings state => exact all
  | several every pending => exact ⟨all.1, all.1⟩

theorem all_close (all : source.All holds) : source.close.All holds := by
  cases source with
  | single bindings state => exact all
  | several every pending => exact ⟨all.1, fun _ impossible => by cases impossible⟩

theorem all_cancel (all : source.All holds) (cancelled : Bindings) :
    (source.cancel cancelled).All holds := by
  cases source with
  | single bindings state =>
      by_cases covered : cancelled.covers bindings = true <;>
        simpa [cancel, covered, All] using all
  | several every pending =>
      exact ⟨all.1, fun bindings member => all.2 bindings (List.mem_filter.mp member).1⟩

theorem all_next (all : source.All holds) :
    (∀ bindings ∈ source.next.1, holds bindings) ∧ source.next.2.All holds := by
  rcases source with ⟨bindings, state⟩ | ⟨every, _ | ⟨first, rest⟩⟩
  · cases state
    case pending => exact ⟨fun _ same => Option.some.inj same ▸ all, all⟩
    all_goals exact ⟨nofun, all⟩
  · exact ⟨nofun, all⟩
  · obtain ⟨own, others⟩ := List.forall_mem_cons.mp all.2
    exact ⟨fun _ same => Option.some.inj same ▸ own, all.1, others⟩

end BindingSource

namespace Scan

variable {faulty : LeafCall → Prop} {census : Census} {supply : List Row}

/-- The rows that a leaf may be given and those it still has to give are listed, and so are its
bindings. -/
structure Lists (supply : List Row) (census : Census) (scan : Scan) : Prop where
  supply : ∀ row ∈ supply, row.Listed census
  pending : ∀ row ∈ scan.pending, row.Listed census
  current : scan.current.Listed census
  source : scan.source.Listed census

theorem lists_lasting : Lasting (Lists supply) :=
  fun _ _ _ within held =>
    { supply := fun row member => (held.supply row member).later within
      pending := fun row member => (held.pending row member).later within
      current := held.current.later within
      source := held.source.later within }

theorem no_pending {census : Census} : ∀ row ∈ ([] : List Row), row.Listed census :=
  fun _ impossible => by cases impossible

theorem enrols_check (call : Call) :
    Enrols (Tracked faulty (Lists supply)) census (check call) fun _ _ => True :=
  enrols_state fun scan _ => enrols_phase_check call scan.phase

theorem enrols_open_pass (context : Context) {load : Action Engine (List Row)}
    (loads : ∀ {census}, (∀ row ∈ supply, row.Listed census) →
      Enrols (Engine.Covered faulty) census load fun later rows => ∀ row ∈ rows, row.Listed later) :
    Enrols (Tracked faulty (Lists supply)) census (openPass context load) fun _ _ => True := by
  apply enrols_bind (enrols_check .openPass)
  intro _ _ _ _
  apply enrols_bind (enrols_reading lists_lasting (keeps_tap context "scan.open"))
  intro later _ _ _
  have loading : Enrols (Tracked faulty (Lists supply)) later (CursorAction.inEngine load)
      fun last rows => ∀ row ∈ rows, row.Listed last :=
    fun start held => enrols_in_engine lists_lasting (loads held.1.supply) start held
  apply enrols_bind loading
  intro last rows _ listed
  exact enrols_change fun scan held => { held with pending := listed }

theorem enrols_next (context : Context) :
    Enrols (Tracked faulty (Lists supply)) census (next context) RowListed := by
  apply enrols_bind (enrols_check .next)
  intro _ _ _ _
  refine enrols_bind (enrols_on_failure (fun _ _ =>
    enrols_change fun _ held => { held with pending := no_pending })
    (enrols_reading lists_lasting (keeps_check_cancelled context))) fun _ _ _ _ => ?_
  apply enrols_bind (enrols_reading lists_lasting (keeps_tap context "scan.next"))
  intro later _ _ _
  apply enrols_state
  intro scan held
  split
  next row rest waiting =>
      have listed := held.pending
      rw [waiting] at listed
      obtain ⟨own, others⟩ := List.forall_mem_cons.mp listed
      apply enrols_bind (enrols_change fun _ held => { held with pending := others })
      intro _ _ within _
      exact enrols_pure _ (row_listed_some (own.later within))
  next =>
      exact enrols_bind (enrols_change fun _ held => { held with }) fun _ _ _ _ =>
        enrols_pure none row_listed_none

theorem enrols_next_bindings :
    Enrols (Tracked faulty (Lists supply)) census nextBindings BindingsListed := by
  apply enrols_bind (enrols_check .nextBindings)
  intro later _ _ _
  apply enrols_state
  intro scan held
  have moved := BindingSource.all_next held.source
  revert moved
  rcases scan.source.next with ⟨bindings?, source⟩
  intro ends
  obtain ⟨own, others⟩ := ends
  refine enrols_bind (enrols_change fun scan held => { held with source := others, current := ?_ })
    fun _ _ within _ => ?_
  · cases bindings? with
    | none => exact held.current
    | some bindings => exact own bindings rfl
  · exact enrols_pure _ fun bindings member => (own bindings member).later within

theorem protocol_enrolling (context : Context) {load : Action Engine (List Row)}
    (loads : ∀ {census}, (∀ row ∈ supply, row.Listed census) →
      Enrols (Engine.Covered faulty) census load fun later rows => ∀ row ∈ rows, row.Listed later) :
    (protocol context load).Enrolling faulty (Lists supply) where
  lasting := lists_lasting
  openPass := fun _ => enrols_open_pass context loads
  next := fun _ => enrols_next context
  close := fun _ => enrols_bind (enrols_check .close) fun _ _ _ _ =>
    enrols_change fun _ held => { held with pending := no_pending }
  destroy := fun _ => enrols_bind (enrols_check .destroy) fun _ _ _ _ =>
    enrols_change fun _ held => { held with pending := no_pending }
  openBindings := fun _ => enrols_bind (enrols_check .openBindings) fun _ _ _ _ =>
    enrols_change fun _ held => { held with source := BindingSource.all_open_all held.source }
  nextBindings := fun _ => enrols_next_bindings
  closeBindings := fun _ => enrols_bind (enrols_check .closeBindings) fun _ _ _ _ =>
    enrols_change fun _ held => { held with source := BindingSource.all_close held.source }
  cancelBindings := fun _ bindings _ held =>
    ⟨{ held.1 with
        pending := no_pending
        source := BindingSource.all_cancel held.1.source bindings }, held.2⟩

theorem enrols_instead_of {result : Type} (call : LeafCall) {action : CursorAction Scan result}
    {gives : Census → result → Prop}
    (enrols : ∀ census, Enrols (Tracked faulty (Lists supply)) census action gives) :
    Enrols (Tracked faulty (Lists supply)) census (insteadOf call action) gives := by
  apply enrols_bind (enrols_in_engine lists_lasting (Engine.enrols_note call))
  intro _ _ _ _
  apply enrols_bind (enrols_in_engine lists_lasting (Engine.enrols_inject_fault call))
  intro later _ _ _
  exact enrols later

theorem enrols_after (call : LeafCall) {action : CursorAction Scan Unit}
    (enrols : ∀ census, Enrols (Tracked faulty (Lists supply)) census action fun _ _ => True) :
    Enrols (Tracked faulty (Lists supply)) census (after call action) fun _ _ => True := by
  apply enrols_bind (enrols_in_engine lists_lasting (Engine.enrols_note call))
  intro later _ _ _
  apply enrols_bind (enrols later)
  intro _ _ _ _
  exact enrols_in_engine lists_lasting (Engine.enrols_inject_fault call)

theorem probed_enrolling {inner : Protocol Scan}
    (enrolling : inner.Enrolling faulty (Lists supply)) :
    (probed inner).Enrolling faulty (Lists supply) where
  lasting := lists_lasting
  openPass := fun _ => enrols_instead_of .openPass enrolling.openPass
  next := fun _ => enrols_instead_of .next enrolling.next
  close := fun _ => enrols_after .close enrolling.close
  destroy := fun _ => enrols_after .destroy enrolling.destroy
  openBindings := fun _ => enrols_instead_of .openBindings enrolling.openBindings
  nextBindings := fun _ => enrols_instead_of .nextBindings enrolling.nextBindings
  closeBindings := fun _ => enrols_instead_of .closeBindings enrolling.closeBindings
  cancelBindings := fun census bindings pair held =>
    have reached := enrolling.cancelBindings census bindings pair held
    ⟨reached.1, Engine.covered_noted reached.2 .cancelBindings⟩

theorem enrols_load_table (name : String) :
    Enrols (Engine.Covered faulty) census (loadTable name)
      fun later rows => ∀ row ∈ rows, row.Listed later :=
  enrols_bind (Engine.enrols_stored_table name) fun later _ _ plain =>
    enrols_pure _ fun row member => Row.listed_of_stored (plain row member) later

end Scan

namespace Plan

variable {faulty : LeafCall → Prop} {census : Census}

/-- The rows that a plan brings along are listed. -/
def Listed (census : Census) : Plan → Prop
  | values _ _ rows => ∀ row ∈ rows, row.Listed census
  | table _ _ => True
  | filter input _ => input.Listed census
  | project input _ _ => input.Listed census
  | aggregate input _ _ _ => input.Listed census
  | limit input _ _ => input.Listed census

/-- All that a cursor tree keeps is listed. -/
def Lists : (plan : Plan) → Coverage plan.Cursor
  | values _ _ rows => Scan.Lists rows
  | table _ _ => Scan.Lists []
  | filter input _ => Node.Lists KeepsNone input.Lists
  | project input _ _ => Node.Lists KeepsNone input.Lists
  | aggregate input _ _ _ => Node.Lists Grouping.Lists input.Lists
  | limit input _ _ => Node.Lists KeepsNone input.Lists

/-- Cursor trees enrol: by induction on the plan. -/
theorem protocol_enrolling (faulty : LeafCall → Prop) (context : Context) (plan : Plan) :
    (plan.protocol context).Enrolling faulty plan.Lists := by
  induction plan with
  | values slice type rows =>
      exact Scan.protocol_enrolling context fun listed => enrols_pure rows listed
  | table name type =>
      exact Scan.probed_enrolling (Scan.protocol_enrolling context fun _ =>
        Scan.enrols_load_table name)
  | filter input predicate induction =>
      exact Filter.protocol_enrolling induction context input.rowType predicate
  | project input type columns induction =>
      exact Project.protocol_enrolling induction context input.rowType type columns
  | aggregate input type keys aggregates induction =>
      exact Grouping.protocol_enrolling induction context ⟨input.rowType, type, keys⟩
  | limit input offset limit? induction =>
      exact Limit.protocol_enrolling induction context offset limit?

theorem Listed.later {later : Census} {plan : Plan} (within : census.Within later)
    (listed : plan.Listed census) : plan.Listed later := by
  induction plan with
  | values slice type rows => exact fun row member => (listed row member).later within
  | table name type => exact trivial
  | filter input predicate induction => exact induction listed
  | project input type columns induction => exact induction listed
  | aggregate input type keys aggregates induction => exact induction listed
  | limit input offset limit? induction => exact induction listed

/-- A new cursor keeps what the plan and the source bring along. -/
theorem start_lists {store : Store} {source : BindingSource} {plan : Plan} {cursor : plan.Cursor}
    (started : plan.start store source = .ok cursor) (listed : plan.Listed census)
    (bound : source.Listed census) : plan.Lists census cursor := by
  induction started using started_induction with
  | values slice type rows => exact ⟨listed, Scan.no_pending, trivial, bound⟩
  | table name type => exact ⟨Scan.no_pending, Scan.no_pending, trivial, bound⟩
  | filter input predicate rest _ _ induction => exact ⟨trivial, trivial, induction listed⟩
  | project input type columns rest _ _ induction => exact ⟨trivial, trivial, induction listed⟩
  | aggregate input type keys aggregates accumulators rest _ _ _ induction =>
      exact ⟨trivial, row_listed_none, induction listed⟩
  | limit input offset limit? rest _ _ induction => exact ⟨trivial, trivial, induction listed⟩

end Plan

end QueryExec
