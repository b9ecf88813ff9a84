import QueryExec.Proofs.Execution
import QueryExec.Proofs.Sharing.Settling
import QueryExec.Proofs.Sharing.Standing

/-!
The books of a session. A ledger is kept beside a session when, command after command, claims are
taken and given up on it in whatever order until the claims from outside are those of the session.
Every session has such a ledger, whatever its commands, and every such ledger agrees with what the
session says of its holders.
-/

namespace QueryExec

/-- Items that come to nothing do not matter. -/
theorem flat_map_perm {item other : Type} {first second : List item} {each : item → List other}
    (left : first.Nodup) (right : second.Nodup)
    (alike : ∀ one, each one ≠ [] → (one ∈ first ↔ one ∈ second)) :
    (first.flatMap each).Perm (second.flatMap each) := by
  classical
  have skip : ∀ items : List item,
      items.flatMap each = (items.filter fun one => each one ≠ []).flatMap each := by
    intro items
    induction items with
    | nil => rfl
    | cons head rest induction =>
        by_cases none : each head = []
        · rw [List.flatMap_cons, none, List.nil_append, induction,
            List.filter_cons_of_neg (by simp [none])]
        · rw [List.flatMap_cons, induction, List.filter_cons_of_pos (by simp [none]),
            List.flatMap_cons]
  rw [skip first, skip second]
  refine List.Perm.flatMap_right each ?_
  refine (List.perm_ext_iff_of_nodup (left.filter _) (right.filter _)).mpr fun one => ?_
  simp only [List.mem_filter, decide_eq_true_eq]
  exact and_congr_left fun some => alike one some

namespace Session

variable {world : Registry} {session : Session} {ledger : Ledger}

/-- The ledger went on to what a session claims, and everything due was settled. -/
structure Follows (session : Session) (before after : Ledger) : Prop where
  moves : Ledger.Moves session.engine.nextId before after
  outside : after.outside.Perm session.claimed
  settled : after.due = []

/-- A ledger was kept beside the session from its beginning. -/
inductive Audited : Session → Ledger → Prop
  | start {settings : SettingsSource} {catalog : CatalogSource} {probe? : Option Probe}
      {session : Session} (started : Session.start settings catalog probe? = .ok session) :
      Audited session .opening
  | step {session : Session} {before after : Ledger} (earlier : Audited session before)
      (command : Command) (follows : (session.step command).2.Follows before after) :
      Audited (session.step command).2 after

/-- The books are right and are those of the session. -/
structure Balanced (world : Registry) (session : Session) (ledger : Ledger) : Prop where
  registered : session.Registered world
  exact : ledger.Exact session.engine.nextId
  outside : ledger.outside.Perm session.claimed
  settled : ledger.due = []

theorem Balanced.later (balanced : session.Balanced world ledger) (command : Command) :
    ledger.Exact (session.step command).2.engine.nextId := by
  obtain ⟨later, grown, reached⟩ := (registers_perform command).reaches balanced.registered
  refine balanced.exact.later ?_
  rw [balanced.registered.engine.next]
  exact grown.1.trans_eq reached.engine.next.symm

theorem Balanced.step (balanced : session.Balanced world ledger) (command : Command)
    {after : Ledger} (follows : (session.step command).2.Follows ledger after) :
    ∃ later, (session.step command).2.Balanced later after := by
  obtain ⟨later, _, reached⟩ := (registers_perform command).reaches balanced.registered
  exact ⟨later, reached, follows.moves.exact (balanced.later command), follows.outside,
    follows.settled⟩

/-- Books that were kept are right: by induction on the commands. -/
theorem Audited.balanced (audited : session.Audited ledger) :
    ∃ world, session.Balanced world ledger := by
  induction audited with
  | start started =>
      obtain ⟨next, _, _, claims⟩ := start_claims started
      refine ⟨.opening, start_registered started, ?_, ?_, rfl⟩
      · rw [next]
        exact Ledger.exact_opening Nat.zero_lt_two
      · unfold claimed
        rw [claims]
        exact .refl _
  | step _ command follows induction =>
      obtain ⟨world, balanced⟩ := induction
      exact balanced.step command follows

theorem live_row_iff {row : Row} : session.Live (.row row) ↔
    row ∈ session.claims.rows.flatMap Row.reach ++
      session.claims.bindings.flatMap Bindings.reachRows := by
  have none : Bindings.empty.reachRows = [] := rfl
  simp [Live, claimed, Claims.things, none, or_and_right, exists_or]

theorem live_bindings_iff {bound : Bindings} : session.Live (.bindings bound) ↔
    bound = .empty ∨ bound ∈ session.claims.rows.flatMap Row.reachBindings ++
      session.claims.bindings.flatMap fun bindings => bindings :: bindings.reachInner := by
  have none : Bindings.empty.reachInner = [] := rfl
  simp [Live, claimed, Claims.things, none, or_and_right, exists_or]

/-- What lives is told apart by its identity. -/
theorem Registered.same_thing (registered : session.Registered world) {one other : Claimable}
    (first : session.Live one) (second : session.Live other) (same : one.id = other.id) :
    one = other := by
  have entry := registered.live first
  rw [same, registered.live second] at entry
  exact (Option.some.inj entry).symm

theorem Registered.mem_live_rows_iff (registered : session.Registered world) {row : Row} :
    row ∈ session.claims.liveRows ↔ session.Live (.row row) := by
  rw [live_row_iff]
  refine mem_first_by_key_iff fun left first right second same => ?_
  have one := registered.same_thing (live_row_iff.mpr first) (live_row_iff.mpr second) same
  exact Claimable.row.inj one

theorem Registered.mem_live_bindings_iff (registered : session.Registered world)
    {bound : Bindings} : bound = .empty ∨ bound ∈ session.claims.liveBindings ↔
      session.Live (.bindings bound) := by
  rw [live_bindings_iff]
  refine or_congr_right (mem_first_by_key_iff fun left first right second same => ?_)
  have one := registered.same_thing (live_bindings_iff.mpr (.inr first))
    (live_bindings_iff.mpr (.inr second)) same
  exact Claimable.bindings.inj one

namespace Balanced

variable (balanced : session.Balanced world ledger)
include balanced

/-- What is there is what lives. -/
theorem objects_iff {one : Claimable} : one ∈ ledger.objects ↔ session.Live one := by
  rw [balanced.exact.objects_iff balanced.settled]
  unfold Live
  simp only [balanced.outside.mem_iff]

theorem objects_nodup : ledger.objects.Nodup :=
  List.Nodup.of_map _ balanced.exact.distinct

theorem rows_there {row : Row} : row ∈ session.claims.liveRows ↔ .row row ∈ ledger.objects :=
  balanced.registered.mem_live_rows_iff.trans balanced.objects_iff.symm

theorem live_rows_perm :
    (ledger.objects.filterMap Claimable.row?).Perm session.claims.liveRows := by
  have live : session.claims.liveRows.Nodup := List.Nodup.of_map _ (first_by_key_nodup _)
  have rows := Claimable.rows_nodup balanced.objects_nodup
  refine (List.perm_ext_iff_of_nodup rows live).mpr fun row => ?_
  exact Claimable.mem_rows_iff.trans balanced.rows_there.symm

/-- The empty binding may be there without being claimed, but it binds no rows. -/
theorem bound_rows_perm : ((ledger.objects.filterMap Claimable.bindings?).flatMap
    Bindings.ownRows).Perm (session.claims.liveBindings.flatMap Bindings.ownRows) := by
  have live : session.claims.liveBindings.Nodup := List.Nodup.of_map _ (first_by_key_nodup _)
  have bindings := Claimable.bindings_nodup balanced.objects_nodup
  refine flat_map_perm bindings live fun bound some => ?_
  rw [Claimable.mem_bindings_iff, balanced.objects_iff,
    ← balanced.registered.mem_live_bindings_iff]
  refine or_iff_right fun same => some ?_
  rw [same]
  rfl

/-- The claims on rows in the books are those of the session. -/
theorem claims_perm : (ledger.claims.filterMap Claimable.row?).Perm session.claims.all := by
  have outside : (ledger.outside.filterMap Claimable.row?).Perm session.claims.rows := by
    rw [← session.claims.rows_of_things]
    exact balanced.outside.filterMap _
  have inside := balanced.live_rows_perm.filterMap Claims.base?
  unfold Ledger.claims Claims.all
  rw [balanced.settled, List.append_nil, List.filterMap_append, List.append_assoc]
  refine outside.append ((Claimable.rows_of_all_parts _).trans ?_)
  exact inside.append balanced.bound_rows_perm

/-- A claim on a row is a claim on the things of its identity, since there is no other. -/
theorem holders_eq_claims {row : Row} (made : .row row ∈ ledger.made) :
    session.claims.holders row = Ledger.claimsOn ledger.claims row.id := by
  unfold Claims.holders Ledger.claimsOn
  rw [← balanced.claims_perm.countP_eq, List.countP_filterMap, List.count, List.countP_map]
  refine List.countP_congr fun claim among => ?_
  have other : claim ∈ ledger.made :=
    balanced.exact.made.mem_iff.mpr (List.mem_append_right _ (balanced.exact.present claim among))
  have alone : claim.id = row.id → claim = .row row :=
    List.inj_on_of_nodup_map balanced.exact.once other made
  rw [Function.comp_apply, beq_iff_eq]
  constructor
  · intro same
    rcases claim with claim | bindings
    · exact (beq_iff_eq.mp same).symm
    · cases same
  · intro same
    rw [alone same]
    exact beq_self_eq_true row.id

theorem made_of_live {row : Row} (live : row ∈ session.claims.liveRows) :
    .row row ∈ ledger.made :=
  balanced.exact.made.mem_iff.mpr (List.mem_append_right _ (balanced.rows_there.mp live))

theorem counted {row : Row} (live : row ∈ session.claims.liveRows) :
    ledger.counts row.id = session.claims.holders row ∧ 0 < session.claims.holders row := by
  rw [balanced.holders_eq_claims (balanced.made_of_live live)]
  exact ⟨balanced.exact.counted row.id,
    Ledger.claims_on_pos (balanced.exact.claimed _ (balanced.rows_there.mp live))⟩

theorem named_live {name : String} {row : Row} (named : session.rows.get? name = some row) :
    row ∈ session.claims.liveRows := by
  have live : session.claims.All session.Live := Claims.all_things.mp fun one among =>
    ⟨one, List.mem_cons_of_mem _ among, one.mem_reach_self⟩
  have rows := Table.every_iff_values.mpr (claims_all.mp live).1
  exact balanced.registered.mem_live_rows_iff.mpr (Table.every_get rows named)

theorem claim_live {row : Row} (claim : row ∈ session.claims.all) :
    row ∈ session.claims.liveRows := by
  have among := Claimable.mem_rows_iff.mp (balanced.claims_perm.mem_iff.mpr claim)
  exact balanced.rows_there.mpr (balanced.exact.present _ among)

/-- The books can go on, whatever the command: what is claimed after it is there still, or it is new
and has an identity that nothing had before. -/
theorem goes_on (command : Command) : ∃ after, (session.step command).2.Follows ledger after := by
  have registered := balanced.registered
  -- The command starts from a registry that knows what lives and nothing else: whatever it leaves
  -- under an old identity lived before it.
  obtain ⟨later, grown, reached⟩ := (registers_perform command).reaches registered.restrict
  have known : ledger.Known later.things := by
    intro one present
    have live := balanced.objects_iff.mp present
    have entry := registered.live live
    have kept := (grown.2 one.id (world.below _ _ entry)).1
    exact kept.trans (Registry.restrict_entry.mpr ⟨entry, live⟩)
  have admits : ledger.Admits later.things (session.step command).2.engine.nextId
      (session.step command).2.claimed := by
    intro claim among one below
    have entry := reached.claimed claim among one below
    refine ⟨entry, (later.below _ _ entry).trans_eq reached.engine.next.symm, ?_⟩
    by_cases old : one.id < world.next
    · have live := Registry.live_of_restrict grown entry old
      exact balanced.exact.not_freed (balanced.objects_iff.mpr live)
    · intro other freed same
      have given := balanced.exact.below other
        (balanced.exact.made.mem_iff.mpr (List.mem_append_left _ freed))
      rw [registered.engine.next, same] at given
      exact old given
  obtain ⟨after, moves, outside, settled⟩ := Ledger.follows (balanced.later command) known admits
  exact ⟨after, moves, outside, settled⟩

end Balanced

theorem row_named_run {name : String} {row : Row} (named : session.rows.get? name = some row) :
    (rowNamed name).run session = (.ok row, session) := by
  change (Action.ofOption _ (session.rows.get? name)).run session = _
  rw [named]
  rfl

/-- What a session answers when it is asked for holders is read off its claims. -/
theorem holders_replied {name : String} {row : Row} (named : session.rows.get? name = some row) :
    (session.step (.holders name)).1 = .ok (.holders (session.claims.holders row)) := by
  change ((rowNamed name >>= _ : SessionAction Reply).run session).1 = _
  rw [Action.run_bind, row_named_run named]
  rfl

/-- Every session has a ledger: by induction on its commands. -/
theorem Reached.audited {faulty : LeafCall → Prop} (reached : session.Reached faulty) :
    ∃ ledger, session.Audited ledger := by
  induction reached with
  | start started faults => exact ⟨_, .start started⟩
  | step earlier command induction =>
      obtain ⟨before, audited⟩ := induction
      obtain ⟨world, balanced⟩ := audited.balanced
      obtain ⟨after, follows⟩ := balanced.goes_on command
      exact ⟨after, audited.step command follows⟩

/-- The holders of rows, whatever the commands of a session. A ledger can be kept beside every
session. Its count of a live row is the number of claims on that row, and is what the session
answers when it is asked for the holders of a named row. What is claimed lives and was not freed.
Nothing is made twice, and each row that was made either lives or was freed, once. The claims that
were counted down are those that were given up from outside and one on each part of whatever was
freed.

Whatever the next command, the ledger can go on to what is claimed after it, and then the rows that
were freed are those without a claim. Whatever happens on the way, the books stay right, and a thing
is freed when the last claim on it goes. -/
theorem holders_counted_exactly (reached : session.Reached fun _ => True) :
    (∃ ledger, session.Audited ledger) ∧
    ∀ ledger, session.Audited ledger →
      (∀ row ∈ session.claims.liveRows,
        ledger.counts row.id = session.claims.holders row ∧ 0 < session.claims.holders row) ∧
      (∀ name row, session.rows.get? name = some row →
        (session.step (.holders name)).1 = .ok (.holders (ledger.counts row.id))) ∧
      (∀ row ∈ session.claims.all,
        row ∈ session.claims.liveRows ∧ ∀ other ∈ ledger.freed, other.id ≠ row.id) ∧
      (ledger.made.map Claimable.id).Nodup ∧
      (ledger.made.filterMap Claimable.row?).Perm
        (ledger.freed.filterMap Claimable.row? ++ session.claims.liveRows) ∧
      ledger.released.Perm (ledger.surrendered ++ ledger.freed.flatMap Claimable.parts) ∧
      ∀ command : Command,
        (∃ after, (session.step command).2.Follows ledger after) ∧
        (∀ after, (session.step command).2.Follows ledger after →
          ∀ row ∈ session.claims.liveRows,
            .row row ∈ after.freed ↔ (session.step command).2.claims.holders row = 0) ∧
        ∀ amid next, Ledger.Moves (session.step command).2.engine.nextId ledger amid →
          Ledger.Move (session.step command).2.engine.nextId amid next →
          next.Exact (session.step command).2.engine.nextId ∧
          ∀ one ∈ amid.objects, one ∈ next.freed ↔ Ledger.claimsOn next.claims one.id = 0 := by
  refine ⟨reached.audited, fun ledger audited => ?_⟩
  obtain ⟨world, balanced⟩ := audited.balanced
  have exact := balanced.exact
  refine ⟨fun row live => ?_, fun name row named => ?_, fun row claim => ?_, exact.once, ?_, ?_,
    fun command => ?_⟩
  · exact balanced.counted live
  · rw [(balanced.counted (balanced.named_live named)).1]
    exact holders_replied named
  · have live := balanced.claim_live claim
    exact ⟨live, exact.not_freed (balanced.rows_there.mp live)⟩
  · refine (exact.made.filterMap _).trans ?_
    rw [List.filterMap_append]
    exact balanced.live_rows_perm.append_left _
  · have counted := exact.balanced
    rw [balanced.settled, List.append_nil] at counted
    exact counted
  · have begun := balanced.later command
    refine ⟨balanced.goes_on command, fun after follows row live => ?_,
      fun amid next before move => ?_⟩
    · obtain ⟨later, kept⟩ := balanced.step command follows
      have made := follows.moves.still_made (balanced.made_of_live live)
      rw [exact.freed_iff follows.moves kept.exact (balanced.rows_there.mp live),
        kept.holders_eq_claims made]
      rfl
    · have there := before.exact begun
      have right := move.exact there
      exact ⟨right, fun one present => there.freed_iff (.single move) right present⟩

end Session

/-! A projected row over a projected row, whose base is also bound by the binding of the first. Only
the topmost row has a name. -/

namespace Tower

open Session

def flag : ColumnType :=
  .notNull .boolean

def type : RowType :=
  ⟨1, [flag]⟩

def base : Row :=
  .stored 2 type [.boolean true]

def first : Row :=
  .projected 4 ⟨2, [flag]⟩ base Counting.new.context (.outer 0 base (.root 3)) [.column 0 flag]

def second : Row :=
  .projected 6 ⟨3, [flag]⟩ first Counting.new.context (.root 5) [.column 0 flag]

def session : Session :=
  Counting.new.after [.type "flag" [flag], .row "base" "flag" [.boolean true],
    .bindings "outer" none [] [(0, "base")],
    .projectRow "first" "base" [flag] [.column 0 flag] (some "outer"),
    .projectRow "second" "first" [flag] [.column 0 flag] none,
    .release "base", .release "first", .bindings "outer" none [] []]

theorem live_rows : session.claims.liveRows = [second, first, base] :=
  rfl

theorem no_claims_left : (session.step (.release "second")).2.claims.all = [] :=
  rfl

/-- With the name of the topmost row goes the whole tower. -/
theorem freed_with_last_name :
    session.Reached (fun _ => True) ∧ session.claims.liveRows = [second, first, base] ∧
    ∃ ledger after, session.Audited ledger ∧ ledger.counts base.id = 2 ∧
      ledger.counts first.id = 1 ∧ ledger.counts second.id = 1 ∧
      (session.step (.release "second")).2.Follows ledger after ∧
      .row base ∈ after.freed ∧ .row first ∈ after.freed ∧ .row second ∈ after.freed := by
  have reached : session.Reached fun _ => True := Counting.new_reached.after _
  obtain ⟨⟨ledger, audited⟩, always⟩ := holders_counted_exactly reached
  obtain ⟨counted, _, _, _, _, _, next⟩ := always ledger audited
  obtain ⟨⟨after, follows⟩, frees, _⟩ := next (.release "second")
  rw [live_rows] at counted frees
  have freed (row : Row) (live : row ∈ [second, first, base]) : .row row ∈ after.freed := by
    refine (frees after follows row live).mpr ?_
    unfold Claims.holders
    rw [no_claims_left]
    rfl
  exact ⟨reached, live_rows, ledger, after, audited, (counted base (by simp)).1,
    (counted first (by simp)).1, (counted second (by simp)).1, follows, freed base (by simp),
    freed first (by simp), freed second (by simp)⟩

end Tower

end QueryExec
