import QueryExec.Floating.Text
import QueryExec.Proofs.Floating.Decimal
import QueryExec.Proofs.Text.Numeral

/-!
The text of a floating-point number tells it from every other number: digits and a point
determine a decimal, and the decimal determines the rank.
-/

namespace QueryExec.Floating

open Text

/-- What digits with at most one point among them are worth. -/
def textWorth (characters : List Char) : ℚ :=
  numeral (characters.takeWhile (· ≠ '.') ++ (characters.dropWhile (· ≠ '.')).tail) /
    10 ^ (characters.dropWhile (· ≠ '.')).tail.length

section TextWorth

variable {whole : List Char}

theorem before_point (numeric : ∀ character ∈ whole, Numeric character) :
    ∀ character ∈ whole, decide (character ≠ '.') = true := by
  intro character member
  rw [decide_eq_true_eq]
  rintro rfl
  exact absurd (numeric _ member).1 (by decide)

theorem zero_numeric : ∀ character ∈ ['0'], Numeric character :=
  List.forall_mem_singleton.mpr (by decide)

theorem text_worth_plain (numeric : ∀ character ∈ whole, Numeric character) :
    textWorth whole = numeral whole := by
  have kept := @List.takeWhile_append_of_pos _ _ _ [] (before_point numeric)
  have dropped := @List.dropWhile_append_of_pos _ _ _ [] (before_point numeric)
  rw [List.append_nil] at kept dropped
  rw [textWorth, kept, dropped]
  simp

theorem text_worth_point (fraction : List Char)
    (numeric : ∀ character ∈ whole, Numeric character) :
    textWorth (whole ++ '.' :: fraction) = numeral (whole ++ fraction) / 10 ^ fraction.length := by
  have kept := @List.takeWhile_append_of_pos _ _ _ ('.' :: fraction) (before_point numeric)
  have dropped := @List.dropWhile_append_of_pos _ _ _ ('.' :: fraction) (before_point numeric)
  rw [textWorth, kept, dropped]
  simp

end TextWorth

theorem numeral_from_zeros (before count : Nat) :
    numeralFrom before (List.replicate count '0') = before * 10 ^ count := by
  induction count generalizing before with
  | zero => exact (Nat.mul_one before).symm
  | succ count later =>
      rw [List.replicate_succ]
      change numeralFrom (before * 10 + 0) (List.replicate count '0') = _
      rw [later, pow_succ', Nat.add_zero, Nat.mul_assoc]

theorem positional_worth (decimal : Decimal) : textWorth decimal.positional = decimal.worth := by
  obtain ⟨units, exponent⟩ := decimal
  have written := numeric_digits units
  unfold Decimal.positional Decimal.worth
  simp only
  split
  · rename_i coarse
    rw [text_worth_plain]
    · rw [numeral, numeral_from_append, numeral_from_zeros, ← numeral, numeral_digits]
      obtain ⟨places, rfl⟩ := Int.eq_ofNat_of_zero_le coarse
      rw [zpow_natCast]
      push_cast
      rfl
    · intro character member
      rcases List.mem_append.mp member with digit | zero
      · exact written _ digit
      · rw [(List.mem_replicate.mp zero).2]
        decide
  · rename_i fine
    have power : exponent = -((-exponent).toNat : Int) := by omega
    generalize (-exponent).toNat = places at power ⊢
    subst power
    rw [zpow_neg, zpow_natCast, ← div_eq_mul_inv]
    split
    · rename_i inside
      rw [text_worth_point _ fun character member => written _ (List.mem_of_mem_take member),
        List.take_append_drop, numeral_digits, List.length_drop]
      congr 2
      omega
    · rename_i outside
      have point := @text_worth_point ['0']
        (List.replicate (places - (digits units).length) '0' ++ digits units) zero_numeric
      rw [List.cons_append, List.nil_append] at point
      rw [point]
      have leading : numeral (['0'] ++
          (List.replicate (places - (digits units).length) '0' ++ digits units)) = units := by
        rw [← List.append_assoc, numeral, numeral_from_append]
        change numeralFrom (numeralFrom 0
          (List.replicate (places - (digits units).length + 1) '0')) (digits units) = units
        rw [numeral_from_zeros, Nat.zero_mul, ← numeral, numeral_digits]
      rw [leading, List.length_append, List.length_replicate]
      congr 2
      omega

theorem positional_head (decimal : Decimal) :
    ∃ first rest, decimal.positional = first :: rest ∧ Numeric first := by
  have written := numeric_digits decimal.units
  obtain ⟨first, rest, spelled⟩ := List.exists_cons_of_ne_nil (digits_ne_nil decimal.units)
  rw [spelled] at written
  have numeric := written first List.mem_cons_self
  unfold Decimal.positional
  simp only [spelled]
  split
  · exact ⟨first, _, rfl, numeric⟩
  · split
    · rename_i inside
      obtain ⟨kept, more⟩ := Nat.exists_eq_succ_of_ne_zero (Nat.ne_of_gt (Nat.sub_pos_of_lt inside))
      rw [more]
      exact ⟨first, _, rfl, numeric⟩
    · exact ⟨'0', _, rfl, by decide⟩

/-- The text of a number without its sign. -/
def rankText (format : Format) (rank : Nat) : List Char :=
  if rank = format.infinityRank then "Infinity".toList
  else if rank = 0 then ['0']
  else (shortest format (format.magnitude rank)).positional

theorem write_number {format : Format} (negative : Bool) (rank : Fin (format.infinityRank + 1)) :
    (Floating.number negative rank).write =
      String.ofList (if negative then '-' :: rankText format rank.val
        else rankText format rank.val) := by
  unfold write view rankText
  by_cases infinite : rank.val = format.infinityRank
  · simp only [infinite, if_true]
    cases negative <;> rfl
  · have significand : (format.magnitude rank.val).significand = 0 ↔ rank.val = 0 := by
      refine ⟨fun none => ?_, fun zero => by rw [zero, format.magnitude_zero]⟩
      by_contra positive
      exact Nat.ne_of_gt (format.significand_pos (Nat.pos_of_ne_zero positive)) none
    simp only [infinite, if_false, Scaled.write, significand]

theorem rank_text_head (format : Format) (rank : Nat) :
    ∃ first rest, rankText format rank = first :: rest ∧ first ≠ '-' ∧ first ≠ 'N' := by
  unfold rankText
  split
  · exact ⟨'I', _, rfl, by decide, by decide⟩
  · split
    · exact ⟨'0', _, rfl, by decide, by decide⟩
    · obtain ⟨first, rest, spelled, numeric⟩ :=
        positional_head (shortest format (format.magnitude rank))
      refine ⟨first, rest, spelled, ?_, ?_⟩
      · rintro rfl
        exact absurd numeric.1 (by decide)
      · rintro rfl
        exact absurd numeric.2 (by decide)

theorem rank_text_injective (format : Format) {first second : Nat}
    (same : rankText format first = rankText format second) : first = second := by
  have finite : ∀ rank, rank ≠ format.infinityRank →
      (∃ head rest, rankText format rank = head :: rest ∧ head ≠ 'I') ∧
        textWorth (rankText format rank) =
          if rank = 0 then 0 else (shortest format (format.magnitude rank)).worth := by
    intro rank bounded
    unfold rankText
    rw [if_neg bounded]
    split
    · refine ⟨⟨'0', [], rfl, by decide⟩, ?_⟩
      rw [text_worth_plain zero_numeric]
      exact Nat.cast_zero
    · obtain ⟨head, rest, spelled, numeric⟩ :=
        positional_head (shortest format (format.magnitude rank))
      refine ⟨⟨head, rest, spelled, ?_⟩, positional_worth _⟩
      rintro rfl
      exact absurd numeric.2 (by decide)
  have infinite : ∀ rank, rank = format.infinityRank →
      ∃ rest, rankText format rank = 'I' :: rest := by
    intro rank top
    exact ⟨_, if_pos top⟩
  by_cases top : first = format.infinityRank
  · by_cases top' : second = format.infinityRank
    · rw [top, top']
    · obtain ⟨rest, spelled⟩ := infinite first top
      obtain ⟨⟨head, rest', spelled', other⟩, -⟩ := finite second top'
      rw [spelled, spelled'] at same
      exact absurd (List.cons.inj same).1.symm other
  · obtain ⟨⟨head, rest, spelled, other⟩, worth⟩ := finite first top
    by_cases top' : second = format.infinityRank
    · obtain ⟨rest', spelled'⟩ := infinite second top'
      rw [spelled, spelled'] at same
      exact absurd (List.cons.inj same).1 other
    · have worth' := (finite second top').2
      rw [same, worth'] at worth
      by_cases zero : first = 0 <;> by_cases zero' : second = 0
      · rw [zero, zero']
      · rw [if_pos zero, if_neg zero'] at worth
        exact absurd worth (ne_of_gt (shortest_positive format (Nat.pos_of_ne_zero zero')))
      · rw [if_neg zero, if_pos zero'] at worth
        exact absurd worth.symm (ne_of_gt (shortest_positive format (Nat.pos_of_ne_zero zero)))
      · rw [if_neg zero, if_neg zero'] at worth
        exact rank_of_decimal format (Nat.pos_of_ne_zero zero) (Nat.pos_of_ne_zero zero') worth.symm

/-- Only what is not a number loses something in its text, its sign. -/
theorem write_injective {format : Format} {first second : Floating format}
    (same : first.write = second.write) :
    first.isNaN = true ∧ second.isNaN = true ∨ first = second := by
  have distinct : ∀ negative : Bool, ∀ rank : Fin (format.infinityRank + 1),
      (Floating.number negative rank).write ≠ "NaN" := by
    intro negative rank spelledNaN
    rw [write_number] at spelledNaN
    have characters := @String.ofList_injective _ ['N', 'a', 'N'] spelledNaN
    obtain ⟨head, rest, spelled, -, other⟩ := rank_text_head format rank.val
    rw [spelled] at characters
    cases negative with
    | false => exact other (List.cons.inj characters).1
    | true => exact absurd (List.cons.inj characters).1 (by decide)
  cases first with
  | nan negative =>
      cases second with
      | nan negative' => exact .inl ⟨rfl, rfl⟩
      | number negative' rank' => exact absurd same.symm (distinct negative' rank')
  | number negative rank =>
      cases second with
      | nan negative' => exact absurd same (distinct negative rank)
      | number negative' rank' =>
          right
          rw [write_number, write_number] at same
          have characters := String.ofList_injective same
          obtain ⟨head, rest, spelled, unsigned, -⟩ := rank_text_head format rank.val
          obtain ⟨head', rest', spelled', unsigned', -⟩ := rank_text_head format rank'.val
          cases negative <;> cases negative' <;>
            simp only [Bool.false_eq_true, if_false, if_true] at characters
          · rw [Fin.ext (rank_text_injective format characters)]
          · rw [spelled] at characters
            exact absurd (List.cons.inj characters).1 unsigned
          · rw [spelled'] at characters
            exact absurd (List.cons.inj characters).1.symm unsigned'
          · rw [Fin.ext (rank_text_injective format (List.cons.inj characters).2)]

end QueryExec.Floating
