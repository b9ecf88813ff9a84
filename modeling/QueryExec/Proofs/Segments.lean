import Mathlib.Data.List.Chain
import Mathlib.Data.List.Induction
import QueryExec.Proofs.GroupBy

/-!
Lists cut into segments, each of equal keys and the next with another key. There are at least as
many segments as keys, and no more exactly when the equal keys stand together.
-/

namespace QueryExec

/-- A segment is its first entry and the others. -/
abbrev Segment (entry : Type) : Type := entry × List entry

namespace Segment

variable {entry other : Type}

def entries (segment : Segment entry) : List entry :=
  segment.1 :: segment.2

def all (segments : List (Segment entry)) : List entry :=
  segments.flatMap entries

def map (step : entry → other) (segment : Segment entry) : Segment other :=
  (step segment.1, segment.2.map step)

@[simp]
theorem all_cons (segment : Segment entry) (segments : List (Segment entry)) :
    all (segment :: segments) = segment.1 :: (segment.2 ++ all segments) :=
  rfl

theorem all_append (first second : List (Segment entry)) :
    all (first ++ second) = all first ++ all second :=
  List.flatMap_append

theorem all_map (step : entry → other) (segments : List (Segment entry)) :
    all (segments.map (map step)) = (all segments).map step := by
  induction segments with
  | nil => rfl
  | cons segment segments induction => simp [map, induction]

theorem entries_length_le {segment : Segment entry} {segments : List (Segment entry)}
    (among : segment ∈ segments) : segment.entries.length ≤ (all segments).length := by
  obtain ⟨before, after, rfl⟩ := List.append_of_mem among
  rw [all_append, List.length_append, all_cons]
  simp [entries]
  omega

end Segment

open Segment

section Classes

variable {entry category : Type} (classOf : entry → category)

/-- Segments of equal entries, each followed by an entry of another class. -/
structure Segmented (segments : List (Segment entry)) : Prop where
  uniform : ∀ segment ∈ segments, ∀ member ∈ segment.2, classOf member = classOf segment.1
  changing : segments.IsChain fun segment next => classOf segment.1 ≠ classOf next.1

/-- No two segments are of one class. -/
def Apart (segments : List (Segment entry)) : Prop :=
  segments.Pairwise fun segment other => classOf segment.1 ≠ classOf other.1

variable {classOf} {segment : Segment entry} {segments : List (Segment entry)}

theorem Segmented.tail (segmented : Segmented classOf (segment :: segments)) :
    Segmented classOf segments :=
  ⟨fun one among => segmented.uniform one (List.mem_cons_of_mem segment among),
    segmented.changing.tail⟩

theorem Segmented.entry_class (segmented : Segmented classOf segments)
    (among : segment ∈ segments) {member : entry} (inside : member ∈ segment.entries) :
    classOf member = classOf segment.1 := by
  rcases List.mem_cons.mp inside with rfl | later
  · rfl
  · exact segmented.uniform segment among member later

end Classes

section Keys

variable {key category : Type} {same : key → key → Bool} {classOf : key → category}

/-- On these keys equality is membership of one class. -/
def Classifies (same : key → key → Bool) (classOf : key → category) (keys : List key) : Prop :=
  ∀ first ∈ keys, ∀ second ∈ keys, same first second = true ↔ classOf first = classOf second

theorem Classifies.part {keys some : List key} (classifies : Classifies same classOf keys)
    (within : some ⊆ keys) : Classifies same classOf some :=
  fun first one second two => classifies first (within one) second (within two)

theorem firsts_concat (same : key → key → Bool) (keys : List key) (next : key) :
    firsts same (keys ++ [next]) =
      if (firsts same keys).any (same · next) then firsts same keys
      else firsts same keys ++ [next] := by
  unfold firsts
  rw [List.foldl_append]
  rfl

theorem firsts_subset (same : key → key → Bool) (keys : List key) : firsts same keys ⊆ keys := by
  induction keys using List.reverseRecOn with
  | nil => exact List.Subset.refl _
  | append_singleton keys next induction =>
      rw [firsts_concat]
      split
      · exact List.subset_append_of_subset_left _ induction
      · exact List.append_subset.mpr ⟨List.subset_append_of_subset_left _ induction,
          List.subset_append_right _ _⟩

theorem firsts_length (same : key → key → Bool) (keys : List key) :
    (firsts same keys).length ≤ keys.length := by
  induction keys using List.reverseRecOn with
  | nil => exact Nat.le_refl _
  | append_singleton keys next induction =>
      rw [firsts_concat]
      split <;> simp <;> omega

/-- The first keys tell which classes occur. -/
theorem firsts_any {keys : List key} {next : key}
    (classifies : Classifies same classOf (keys ++ [next])) :
    (firsts same keys).any (same · next) = true ↔
      ∃ earlier ∈ keys, classOf earlier = classOf next := by
  induction keys using List.reverseRecOn generalizing next with
  | nil => simp [firsts]
  | append_singleton keys last induction =>
      have lastNext : same last next = true ↔ classOf last = classOf next :=
        classifies last (by simp) next (by simp)
      have before : Classifies same classOf (keys ++ [last]) :=
        classifies.part (List.subset_append_left _ _)
      have without : Classifies same classOf (keys ++ [next]) :=
        classifies.part (by simp [List.append_subset])
      rw [firsts_concat]
      split
      next found =>
        rw [induction without]
        constructor
        · rintro ⟨earlier, among, equal⟩
          exact ⟨earlier, List.mem_append_left _ among, equal⟩
        · rintro ⟨earlier, among, equal⟩
          rcases List.mem_append.mp among with old | new
          · exact ⟨earlier, old, equal⟩
          · obtain ⟨first, old, alike⟩ := (induction before).mp found
            rw [List.mem_singleton.mp new] at equal
            exact ⟨first, old, alike.trans equal⟩
      next =>
        rw [List.any_append, Bool.or_eq_true, induction without]
        simp only [List.any_cons, List.any_nil, Bool.or_false, lastNext, List.mem_append,
          List.mem_singleton]
        constructor
        · rintro (⟨earlier, among, equal⟩ | equal)
          · exact ⟨earlier, .inl among, equal⟩
          · exact ⟨last, .inr rfl, equal⟩
        · rintro ⟨earlier, among | rfl, equal⟩
          · exact .inl ⟨earlier, among, equal⟩
          · exact .inr equal

/-- Keys of classes that occurred before are no first keys. -/
theorem firsts_append_same {keys more : List key}
    (classifies : Classifies same classOf (keys ++ more))
    (old : ∀ next ∈ more, ∃ earlier ∈ keys, classOf earlier = classOf next) :
    firsts same (keys ++ more) = firsts same keys := by
  induction more using List.reverseRecOn with
  | nil => rw [List.append_nil]
  | append_singleton more next induction =>
      rw [← List.append_assoc] at classifies ⊢
      rw [firsts_concat, if_pos, induction (classifies.part (List.subset_append_left _ _))
        fun one among => old one (List.mem_append_left _ among)]
      rw [firsts_any classifies]
      obtain ⟨earlier, among, equal⟩ := old next (by simp)
      exact ⟨earlier, List.mem_append_left _ among, equal⟩

/-- The first keys are found among the first entries of the segments. -/
theorem firsts_all {segments : List (Segment key)} (segmented : Segmented classOf segments)
    (classifies : Classifies same classOf (all segments)) :
    firsts same (all segments) = firsts same (segments.map Prod.fst) := by
  induction segments using List.reverseRecOn with
  | nil => rfl
  | append_singleton segments segment induction =>
      have before : Segmented classOf segments :=
        ⟨fun one among => segmented.uniform one (List.mem_append_left _ among),
          segmented.changing.left_of_append⟩
      have alone : all [segment] = [segment.1] ++ segment.2 := by simp [all, entries]
      rw [all_append, alone, ← List.append_assoc] at classifies ⊢
      rw [firsts_append_same classifies, firsts_concat, List.map_append, List.map_singleton,
        firsts_concat, induction before (classifies.part ?_)]
      · exact fun one among => List.mem_append_left _ (List.mem_append_left _ among)
      · intro next among
        exact ⟨segment.1, by simp, (segmented.uniform segment (by simp) next among).symm⟩

/-- Every key is a first key exactly when no two are of one class. -/
theorem firsts_length_eq {keys : List key} (classifies : Classifies same classOf keys) :
    (firsts same keys).length = keys.length ↔
      keys.Pairwise fun first second => classOf first ≠ classOf second := by
  induction keys using List.reverseRecOn with
  | nil => exact ⟨fun _ => .nil, fun _ => rfl⟩
  | append_singleton keys next induction =>
      have before := induction (classifies.part (List.subset_append_left _ _))
      have fewer := firsts_length same keys
      rw [firsts_concat, List.pairwise_append, ← before]
      split
      next found =>
        obtain ⟨earlier, among, equal⟩ := (firsts_any classifies).mp found
        simp only [List.length_append, List.length_singleton]
        constructor
        · intro impossible
          omega
        · rintro ⟨_, _, apart⟩
          exact absurd equal (apart earlier among next (List.mem_singleton_self next))
      next missing =>
        have apart : ∀ earlier ∈ keys, ∀ last ∈ [next], classOf earlier ≠ classOf last := by
          intro earlier among last isNext equal
          rw [List.mem_singleton.mp isNext] at equal
          exact missing ((firsts_any classifies).mpr ⟨earlier, among, equal⟩)
        simp only [List.length_append, List.length_singleton, Nat.add_right_cancel_iff]
        exact ⟨fun same => ⟨same, List.pairwise_singleton _ _, apart⟩, fun both => both.1⟩

end Keys

section Contiguity

variable {key category : Type} {same : key → key → Bool} {classOf : key → category}

/-- An entry of the middle part of a list, by its place. -/
theorem middle_of_classes {before middle after : List key} {one : category}
    (outside : ∀ member ∈ before ++ after, classOf member ≠ one) {place : Nat} {member : key}
    (found : (before ++ (middle ++ after))[place]? = some member) (ofClass : classOf member = one) :
    before.length ≤ place ∧ place < before.length + middle.length := by
  by_cases early : place < before.length
  · rw [List.getElem?_append_left early] at found
    exact absurd ofClass (outside member
      (List.mem_append_left _ (List.mem_of_getElem? found)))
  · refine ⟨Nat.le_of_not_lt early, ?_⟩
    rw [List.getElem?_append_right (Nat.le_of_not_lt early)] at found
    by_contra late
    rw [List.getElem?_append_right (by omega)] at found
    exact absurd ofClass (outside member (List.mem_append_right _ (List.mem_of_getElem? found)))

theorem Contiguous.suffix {before after : List key}
    (contiguous : Contiguous same (before ++ after)) :
    Contiguous same after := by
  intro first middle last one two three below above foundFirst foundMiddle foundLast equal
  have shifted : ∀ place : Nat, (before ++ after)[before.length + place]? = after[place]? := by
    intro place
    rw [List.getElem?_append_right (Nat.le_add_right _ _), Nat.add_sub_cancel_left]
  rw [← shifted] at foundFirst foundMiddle foundLast
  exact contiguous (Nat.add_le_add_left below _) (Nat.add_le_add_left above _) foundFirst
    foundMiddle foundLast equal

/-- Segments of one class with another between them are not contiguous. -/
theorem apart_of_contiguous {segments : List (Segment key)}
    (segmented : Segmented classOf segments)
    (classifies : Classifies same classOf (Segment.all segments))
    (contiguous : Contiguous same (Segment.all segments)) : Apart classOf segments := by
  induction segments with
  | nil => exact .nil
  | cons segment rest induction =>
      have split : Segment.all (segment :: rest) = segment.entries ++ Segment.all rest := rfl
      rw [split] at classifies contiguous
      refine .cons ?_ (induction segmented.tail
        (classifies.part (List.subset_append_right _ _)) contiguous.suffix)
      intro other among equal
      obtain ⟨nearer, farther, rfl⟩ := List.append_of_mem among
      cases nearer with
      | nil => exact (List.isChain_cons_cons.mp segmented.changing).1 equal
      | cons near nearer =>
          refine (List.isChain_cons_cons.mp segmented.changing).1 ?_
          have later : segment.entries ++ Segment.all (near :: nearer ++ other :: farther) =
              Segment.all (segment :: near :: nearer) ++
                (other.1 :: (other.2 ++ Segment.all farther)) := by
            rw [Segment.all_append, ← List.append_assoc]
            rfl
          have here : segment.1 ∈ segment.entries ++
              Segment.all (near :: nearer ++ other :: farther) := by
            simp [Segment.entries]
          have there : near.1 ∈ segment.entries ++
              Segment.all (near :: nearer ++ other :: farther) := by
            simp
          have beyond : other.1 ∈ segment.entries ++
              Segment.all (near :: nearer ++ other :: farther) := by
            rw [later]
            simp
          have atNear : (segment.entries ++ Segment.all (near :: nearer ++ other :: farther))[
              segment.entries.length]? = some near.1 := by
            simp
          have atOther : (segment.entries ++ Segment.all (near :: nearer ++ other :: farther))[
              (Segment.all (segment :: near :: nearer)).length]? = some other.1 := by
            rw [later]
            simp
          have farEnough : segment.entries.length ≤
              (Segment.all (segment :: near :: nearer)).length := by
            simp [Segment.entries]
          exact (classifies _ here _ there).mp (contiguous (Nat.zero_le _) farEnough rfl atNear
            atOther ((classifies _ here _ beyond).mpr equal))

/-- The entries of one class are all in one segment. -/
theorem contiguous_of_apart {segments : List (Segment key)}
    (segmented : Segmented classOf segments)
    (classifies : Classifies same classOf (Segment.all segments))
    (apart : Apart classOf segments) : Contiguous same (Segment.all segments) := by
  intro before between after first middle last below above foundFirst foundMiddle foundLast equal
  have isFirst := List.mem_of_getElem? foundFirst
  have isMiddle := List.mem_of_getElem? foundMiddle
  have isLast := List.mem_of_getElem? foundLast
  rw [classifies _ isFirst _ isMiddle]
  rw [classifies _ isFirst _ isLast] at equal
  obtain ⟨segment, among, inside⟩ := List.mem_flatMap.mp isFirst
  have ofSegment := segmented.entry_class among inside
  obtain ⟨nearer, farther, rfl⟩ := List.append_of_mem among
  have split : Segment.all (nearer ++ segment :: farther) =
      Segment.all nearer ++ (segment.entries ++ Segment.all farther) := by
    rw [Segment.all_append]
    rfl
  have outside : ∀ member ∈ Segment.all nearer ++ Segment.all farther,
      classOf member ≠ classOf first := by
    rw [ofSegment]
    intro member elsewhere
    obtain ⟨_, apartFarther, apartNearer⟩ := List.pairwise_append.mp apart
    rcases List.mem_append.mp elsewhere with early | late
    · obtain ⟨other, isOther, member⟩ := List.mem_flatMap.mp early
      rw [segmented.entry_class (List.mem_append_left _ isOther) member]
      exact apartNearer other isOther segment List.mem_cons_self
    · obtain ⟨other, isOther, member⟩ := List.mem_flatMap.mp late
      rw [segmented.entry_class
        (List.mem_append_right _ (List.mem_cons_of_mem _ isOther)) member]
      exact Ne.symm ((List.pairwise_cons.mp apartFarther).1 other isOther)
  rw [split] at foundFirst foundMiddle foundLast
  obtain ⟨start, _⟩ := middle_of_classes outside foundFirst rfl
  obtain ⟨_, stop⟩ := middle_of_classes outside foundLast equal.symm
  rw [List.getElem?_append_right (by omega), List.getElem?_append_left (by omega)] at foundMiddle
  rw [ofSegment, segmented.entry_class among (List.mem_of_getElem? foundMiddle)]

/-- There are as many segments as classes at least, and no more exactly when the entries of every
class are together. -/
theorem segments_count {segments : List (Segment key)} (segmented : Segmented classOf segments)
    (classifies : Classifies same classOf (Segment.all segments)) :
    (firsts same (Segment.all segments)).length ≤ segments.length ∧
      ((firsts same (Segment.all segments)).length = segments.length ↔
        Contiguous same (Segment.all segments)) := by
  have heads : segments.map Prod.fst ⊆ Segment.all segments := by
    intro first among
    obtain ⟨segment, isSegment, rfl⟩ := List.mem_map.mp among
    exact List.mem_flatMap.mpr ⟨segment, isSegment, List.mem_cons_self⟩
  have most := firsts_length same (segments.map Prod.fst)
  have all := firsts_length_eq (classifies.part heads)
  rw [List.length_map] at most all
  rw [firsts_all segmented classifies, all, List.pairwise_map]
  exact ⟨most, contiguous_of_apart segmented classifies, apart_of_contiguous segmented classifies⟩

end Contiguity

section Recombining

variable {category : Type} {same : List Datum → List Datum → Bool} {keys : Nat}
  {classOf : List Datum → category} {functions : List Combinable}
  {segments : List (Segment (List Datum))} {emitted : List (List Datum)}

/-- A row tells the key of a segment and what the functions say about its entries. -/
def Tells (keys : Nat) (functions : List Combinable) (segment : Segment (List Datum))
    (row : List Datum) : Prop :=
  row.take keys = segment.1.take keys ∧
    ∀ (place : Nat) (function : Combinable), functions[place]? = some function →
      function.Expresses (columnOf keys place segment.entries) ((row[keys + place]?).getD .null)

/-- The column of each function holds values of one kind that is not a floating-point one. -/
def ExactColumns (keys : Nat) (functions : List Combinable) (table : List (List Datum)) : Prop :=
  ∀ (place : Nat) (function : Combinable), functions[place]? = some function →
    ∃ kind : Kind, kind.isFloating = false ∧ ∀ value ∈ columnOf keys place table, value.Fits kind

theorem ExactColumns.part {table some : List (List Datum)}
    (exact : ExactColumns keys functions table) (within : some ⊆ table) :
    ExactColumns keys functions some := by
  intro place function present
  obtain ⟨kind, plain, fits⟩ := exact place function present
  exact ⟨kind, plain, fun value among => fits value (List.map_subset _ within among)⟩

/-- What follows from the rows is what is said about all entries of their segments. -/
theorem combined_column (tells : List.Forall₂ (Tells keys functions) segments emitted)
    (exact : ExactColumns keys functions (Segment.all segments)) {place : Nat}
    {function : Combinable} (present : functions[place]? = some function) :
    function.combined (columnOf keys place emitted) =
      function.total (columnOf keys place (Segment.all segments)) := by
  obtain ⟨kind, plain, fits⟩ := exact place function present
  have parts : columnOf keys place (Segment.all segments) =
      (segments.map fun segment => columnOf keys place segment.entries).flatten := by
    unfold columnOf Segment.all
    rw [List.map_flatMap, List.flatMap_def]
  have expressed : List.Forall₂ function.Expresses
      (segments.map fun segment => columnOf keys place segment.entries)
      (columnOf keys place emitted) := by
    unfold columnOf
    rw [List.forall₂_map_left_iff, List.forall₂_map_right_iff]
    exact tells.imp fun _ _ told => told.2 place function present
  rw [parts] at fits ⊢
  refine Combinable.combined_eq plain ?_ expressed
  exact fun part among value member => fits value (List.mem_flatten.mpr ⟨part, among, member⟩)

theorem tells_filter (tells : List.Forall₂ (Tells keys functions) segments emitted)
    (chosen : List Datum → Bool) :
    List.Forall₂ (Tells keys functions)
      (segments.filter fun segment => chosen (segment.1.take keys))
      (emitted.filter fun row => chosen (row.take keys)) := by
  induction tells with
  | nil => exact .nil
  | @cons segment row segments emitted told tells induction =>
      rw [List.filter_cons, List.filter_cons, told.1]
      split
      · exact .cons told induction
      · exact induction

/-- All entries of a segment are chosen together. -/
theorem all_filter {chosen : List Datum → Bool} (segments : List (Segment (List Datum)))
    (together : ∀ segment ∈ segments, ∀ member ∈ segment.2,
      chosen (member.take keys) = chosen (segment.1.take keys)) :
    (Segment.all segments).filter (fun row => chosen (row.take keys)) =
      Segment.all (segments.filter fun segment => chosen (segment.1.take keys)) := by
  induction segments with
  | nil => rfl
  | cons segment segments induction =>
      have own := together segment List.mem_cons_self
      have others := induction fun one among => together one (List.mem_cons_of_mem segment among)
      rw [Segment.all_cons, List.filter_cons, List.filter_append, others, List.filter_cons]
      split
      next taken =>
        have whole : segment.2.filter (fun row => chosen (row.take keys)) = segment.2 :=
          List.filter_eq_self.mpr fun member among => (own member among).trans taken
        rw [whole, Segment.all_cons]
      next left =>
        have none : segment.2.filter (fun row => chosen (row.take keys)) = [] :=
          List.filter_eq_nil_iff.mpr fun member among => by
            rw [own member among]
            exact left
        rw [none, List.nil_append]

theorem Segmented.of_rows (segmented : Segmented (fun row => classOf (row.take keys)) segments) :
    Segmented classOf (segments.map (Segment.map (·.take keys))) := by
  refine ⟨?_, (List.isChain_map _).mpr segmented.changing⟩
  intro segment among member inside
  obtain ⟨rows, isRows, rfl⟩ := List.mem_map.mp among
  obtain ⟨row, isRow, rfl⟩ := List.mem_map.mp inside
  exact segmented.uniform rows isRows row isRow

variable (segmented : Segmented (fun row => classOf (row.take keys)) segments)
  (classifies : Classifies same classOf ((Segment.all segments).map (·.take keys)))
  (tells : List.Forall₂ (Tells keys functions) segments emitted)

include segmented classifies tells

theorem emitted_keys : firsts same (emitted.map (·.take keys)) =
    firsts same ((Segment.all segments).map (·.take keys)) := by
  have heads : emitted.map (·.take keys) = segments.map fun segment => segment.1.take keys := by
    clear segmented classifies
    induction tells with
    | nil => rfl
    | cons told _ induction => rw [List.map_cons, List.map_cons, told.1, induction]
  rw [heads, ← Segment.all_map]
  rw [← Segment.all_map] at classifies
  rw [firsts_all segmented.of_rows classifies, List.map_map]
  rfl

/-- Rows that tell the segments of a table group to what the table groups to. -/
theorem recombined_segments (exact : ExactColumns keys functions (Segment.all segments)) :
    recombined same keys functions emitted =
      groupBy same keys functions (Segment.all segments) := by
  have alike : groupKeys same keys emitted = groupKeys same keys (Segment.all segments) := by
    unfold groupKeys
    rw [emitted_keys segmented classifies tells]
  unfold recombined groupBy grouped
  rw [alike]
  apply List.map_congr_left
  intro key among
  have together : ∀ segment ∈ segments, ∀ member ∈ segment.2,
      same key (member.take keys) = same key (segment.1.take keys) := by
    intro segment isSegment member inside
    have isFirst : segment.1 ∈ Segment.all segments :=
      List.mem_flatMap.mpr ⟨segment, isSegment, List.mem_cons_self⟩
    have isMember : member ∈ Segment.all segments :=
      List.mem_flatMap.mpr ⟨segment, isSegment, List.mem_cons_of_mem _ inside⟩
    unfold groupKeys at among
    split at among
    next none =>
      rw [List.mem_singleton.mp among, none]
      rfl
    next =>
      have isKey := firsts_subset same _ among
      rw [Bool.eq_iff_iff, classifies _ isKey _ (List.mem_map_of_mem isMember),
        classifies _ isKey _ (List.mem_map_of_mem isFirst),
        segmented.uniform segment isSegment member inside]
  dsimp only
  refine congrArg (Prod.mk key) (List.map_congr_left ?_)
  rintro ⟨function, place⟩ member
  have present : functions[place]? = some function := List.mem_zipIdx_iff_getElem?.mp member
  have chosen := tells_filter tells (same key)
  rw [all_filter segments together]
  refine combined_column chosen (exact.part ?_) present
  intro row member
  obtain ⟨segment, isChosen, inside⟩ := List.mem_flatMap.mp member
  exact List.mem_flatMap.mpr ⟨segment, (List.mem_filter.mp isChosen).1, inside⟩

end Recombining

end QueryExec
