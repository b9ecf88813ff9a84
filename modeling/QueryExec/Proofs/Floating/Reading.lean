import QueryExec.Floating.Text
import QueryExec.Proofs.Floating.Arithmetic
import QueryExec.Proofs.Floating.Decimal
import QueryExec.Proofs.Text.Spelling

/-!
Reading of decimals. What is spelled as a decimal is read as the number that it rounds to. Far from
the magnitudes of a format the reader does not form the power of ten, and the result is the same.
-/

namespace QueryExec.Floating

open Text

/-- A power of ten after digits: none, or `e` before its exponent. -/
inductive SpellsPower : List Char → Int → Prop
  | none : SpellsPower [] 0
  | marked {mark : Char} {rest : List Char} {exponent : Int} (letter : mark = 'e' ∨ mark = 'E')
      (spelled : SpellsInteger rest exponent) : SpellsPower (mark :: rest) exponent

/-- One or more digits, of which some may stand after a point, and then a power of ten. -/
inductive SpellsMagnitude : List Char → ℚ → Prop
  | plain {whole power : List Char} {value exponent : Int} (spelled : SpellsNatural whole value)
      (scaled : SpellsPower power exponent) :
      SpellsMagnitude (whole ++ power) (value * 10 ^ exponent)
  | pointed {whole fraction power : List Char} {value exponent : Int}
      (spelled : SpellsNatural (whole ++ fraction) value) (scaled : SpellsPower power exponent) :
      SpellsMagnitude (whole ++ '.' :: (fraction ++ power))
        (value * 10 ^ (exponent - fraction.length))

/-- An optional sign and a magnitude. -/
abbrev SpellsDecimal : List Char → ℚ → Prop :=
  Signed SpellsMagnitude

section Spelling

variable {characters whole rest : List Char} {number : ℚ}

theorem is_digit_iff {character : Char} : isDigit character = true ↔ Numeric character := by
  rw [isDigit, Option.isSome_iff_exists]
  simp only [digit_some_iff, exists_and_left, exists_eq, and_true]

/-- Digits are taken up to the first character that is none. -/
theorem split_digits (numeric : ∀ character ∈ whole, Numeric character)
    (stops : ∀ character ∈ rest.head?, ¬Numeric character) :
    (whole ++ rest).takeWhile isDigit = whole ∧ (whole ++ rest).dropWhile isDigit = rest := by
  have taken : ∀ character ∈ whole, isDigit character = true := fun character member =>
    is_digit_iff.mpr (numeric character member)
  rw [List.takeWhile_append_of_pos taken, List.dropWhile_append_of_pos taken]
  cases rest with
  | nil => exact ⟨List.append_nil whole, rfl⟩
  | cons first rest =>
      have kept : ¬isDigit first = true := is_digit_iff.not.mpr (stops first rfl)
      rw [List.takeWhile_cons_of_neg kept, List.dropWhile_cons_of_neg kept, List.append_nil]
      exact ⟨rfl, rfl⟩

theorem SpellsPower.stops {exponent : Int} (scaled : SpellsPower rest exponent) :
    ∀ character ∈ rest.head?, ¬Numeric character ∧ character ≠ '.' := by
  cases scaled with
  | none => nofun
  | marked letter spelled =>
      rintro character ⟨⟩
      rcases letter with rfl | rfl <;> decide

theorem SpellsPower.read {exponent : Int} (scaled : SpellsPower rest exponent) :
    readExponent rest = some exponent := by
  cases scaled with
  | none => rfl
  | marked letter spelled => exact (if_pos letter).trans (read_integer_iff.mpr spelled)

/-- What follows the first digits: the digits after the point, if there is one, and the rest. -/
def afterWhole : List Char → List Char × List Char
  | '.' :: afterPoint => (afterPoint.takeWhile isDigit, afterPoint.dropWhile isDigit)
  | rest => ([], rest)

/-- Reading a decimal, once its parts are known. -/
theorem read_decimal_parts {fraction power : List Char} {value exponent : Int}
    (before : characters.takeWhile isDigit = whole)
    (after : afterWhole (characters.dropWhile isDigit) = (fraction, power))
    (spelled : SpellsNatural (whole ++ fraction) value) (scaled : SpellsPower power exponent) :
    ∃ decimal, readDecimal characters = some decimal ∧
      decimal.worth = value * 10 ^ (exponent - fraction.length) := by
  have natural := spelled.worth
  rw [natural] at spelled
  have parts : readDecimal characters =
      (readNatural (characters.takeWhile isDigit ++
        (afterWhole (characters.dropWhile isDigit)).1)).bind fun value =>
          (readExponent (afterWhole (characters.dropWhile isDigit)).2).bind fun exponent =>
            some ⟨value, exponent - (afterWhole (characters.dropWhile isDigit)).1.length⟩ := rfl
  refine ⟨⟨numeral (whole ++ fraction), exponent - fraction.length⟩, ?_, ?_⟩
  · rw [parts, before, after, read_natural_iff.mpr spelled, scaled.read]
    rfl
  · rw [Decimal.worth, natural]
    rfl

theorem SpellsMagnitude.read (spelled : SpellsMagnitude characters number) :
    ∃ decimal, readDecimal characters = some decimal ∧ decimal.worth = number := by
  cases spelled with
  | @plain whole power value exponent spelled scaled =>
      obtain ⟨before, after⟩ := split_digits spelled.numeric fun character member =>
        (scaled.stops character member).1
      have unpointed : afterWhole power = ([], power) := by
        cases scaled with
        | none => rfl
        | marked letter _ => rcases letter with rfl | rfl <;> rfl
      rw [← List.append_nil whole] at spelled
      have parts := read_decimal_parts before (after.symm ▸ unpointed) spelled scaled
      rwa [List.length_nil, Nat.cast_zero, sub_zero] at parts
  | @pointed whole fraction power value exponent spelled scaled =>
      obtain ⟨first, second⟩ := List.forall_mem_append.mp spelled.numeric
      obtain ⟨before, after⟩ := @split_digits whole ('.' :: (fraction ++ power)) first (by
        rintro character ⟨⟩
        decide)
      obtain ⟨before', after'⟩ := split_digits second fun character member =>
        (scaled.stops character member).1
      have pointed : afterWhole ('.' :: (fraction ++ power)) = (fraction, power) := by
        rw [afterWhole, before', after']
      exact read_decimal_parts before (after.symm ▸ pointed) spelled scaled

/-- A magnitude starts with a digit or the point. -/
theorem SpellsMagnitude.head (spelled : SpellsMagnitude characters number) :
    ∃ first rest, characters = first :: rest ∧ (Numeric first ∨ first = '.') := by
  cases spelled with
  | plain spelled scaled =>
      obtain ⟨first, rest, rfl⟩ := List.exists_cons_of_ne_nil spelled.present
      exact ⟨first, _, rfl, .inl (spelled.numeric first List.mem_cons_self)⟩
  | @pointed whole _ _ _ _ spelled scaled =>
      cases whole with
      | nil => exact ⟨'.', _, rfl, .inr rfl⟩
      | cons first rest => exact ⟨first, _, rfl, .inl (spelled.numeric first List.mem_cons_self)⟩

theorem numeric_to_lower {character : Char} (start : Numeric character ∨ character = '.') :
    character.toLower = character := by
  rcases start with ⟨-, high⟩ | rfl
  · refine dif_neg ?_
    rintro ⟨low, -⟩
    have letter : 65 ≤ character.toNat := low
    omega
  · rfl

/-- A magnitude is none of the words for what is no decimal. -/
theorem SpellsMagnitude.read_literal (spelled : SpellsMagnitude characters number) :
    ∃ decimal, readLiteral characters = some (.decimal decimal) ∧ decimal.worth = number := by
  obtain ⟨decimal, read, worth⟩ := spelled.read
  obtain ⟨first, rest, rfl, start⟩ := spelled.head
  have other : ∀ letter word, ¬(Numeric letter ∨ letter = '.') →
      String.ofList ((first :: rest).map Char.toLower) ≠ String.ofList (letter :: word) := by
    intro letter word outside same
    have heads := (List.cons.inj (String.ofList_injective same)).1
    rw [numeric_to_lower start] at heads
    exact outside (heads ▸ start)
  refine ⟨decimal, ?_, worth⟩
  unfold readLiteral
  dsimp only
  rw [if_neg (other 'n' ['a', 'n'] (by decide)), if_neg, read]
  · rfl
  · rintro (same | same)
    · exact other 'i' ['n', 'f'] (by decide) same
    · exact other 'i' ['n', 'f', 'i', 'n', 'i', 't', 'y'] (by decide) same

end Spelling

/-- The number of digits bounds a number from both sides. -/
theorem digits_bounds (number : Nat) : number < 10 ^ (digits number).length ∧
    (number ≠ 0 → 10 ^ (digits number).length ≤ 10 * number) := by
  induction number using digits.induct with
  | case1 number below =>
      rw [digits, if_pos below, List.length_singleton]
      omega
  | case2 number large shorter =>
      rw [digits, if_neg large, List.length_append, List.length_singleton, pow_succ]
      omega

namespace Decimal

variable {decimal : Decimal} {format : Format}

/-- The place above the leading digit bounds a decimal. -/
theorem worth_bounds (present : decimal.units ≠ 0) :
    decimal.worth < 10 ^ (decimal.exponent + (digits decimal.units).length) ∧
      10 ^ (decimal.exponent + (digits decimal.units).length - 1) ≤ decimal.worth := by
  obtain ⟨high, low⟩ := digits_bounds decimal.units
  have powerPos : (0 : ℚ) < 10 ^ decimal.exponent := by positivity
  have above : (decimal.units : ℚ) < 10 ^ (digits decimal.units).length := by exact_mod_cast high
  have below : (10 : ℚ) ^ (digits decimal.units).length ≤ 10 * decimal.units := by
    exact_mod_cast low present
  rw [worth, zpow_sub_one₀ (by norm_num), zpow_add₀ (by norm_num), zpow_natCast]
  constructor <;> nlinarith

/-- A decimal is exactly the quotient that is rounded. -/
theorem ratio_worth (decimal : Decimal) : Ratio.worth ⟨decimal.units * tenTo decimal.exponent.toNat,
    tenTo (-decimal.exponent).toNat⟩ = decimal.worth := by
  rw [Ratio.worth, worth, ← power_quotient 10 (by norm_num)]
  push_cast [ten_to_cast]
  ring

end Decimal

/-- The exponent beyond which the reader forms no power of ten. No magnitude of the format is greater
than two to this exponent, and none but zero is less than two to its negative. -/
def Format.extent (format : Format) : Int :=
  twoTo format.exponentBits + format.fractionBits

theorem Format.extent_nonneg (format : Format) : 0 ≤ format.extent := by
  unfold extent
  omega

/-- A power of two above every finite magnitude of a format. -/
theorem worth_infinity_le (format : Format) :
    format.worth format.infinityRank ≤ 2 ^ format.extent := by
  unfold Format.extent
  have some := two_to_pos format.exponentBits
  rcases Nat.eq_or_lt_of_le some with one | more
  · have zero : format.infinityRank = 0 := by rw [Format.infinityRank, ← one, Nat.sub_self, Nat.zero_mul]
    rw [zero, Format.worth, Format.magnitude_zero, Dyadic.worth, Nat.cast_zero, zero_mul]
    positivity
  · obtain ⟨binade, last⟩ : ∃ binade, twoTo format.exponentBits = binade + 2 :=
      Nat.exists_eq_add_of_le' more
    have size := two_to_pos format.fractionBits
    have top : format.infinityRank =
        binade * twoTo format.fractionBits + twoTo format.fractionBits := by
      rw [Format.infinityRank, last, Nat.succ_sub_one, Nat.succ_mul]
    rw [top, format.worth_composed binade le_rfl (by omega), two_to_cast, ← zpow_natCast,
      ← zpow_add₀ (by norm_num)]
    refine zpow_le_zpow_right₀ (by norm_num) ?_
    rw [last, Format.lowestExponent]
    omega

/-- Half the least magnitude of a format is no less than a power of two. -/
theorem midpoint_zero_ge (format : Format) : (2 : ℚ) ^ (-format.extent) ≤ format.midpoint 0 := by
  have fewer : twoTo (format.exponentBits - 1) ≤ twoTo format.exponentBits :=
    Nat.pow_le_pow_right (by decide) (Nat.sub_le _ _)
  have middle : format.midpoint 0 = 2 ^ (format.lowestExponent - 1) := by
    rw [Format.midpoint, Format.worth, Format.unit, Format.magnitude_zero, Dyadic.worth,
      zpow_sub_one₀ (by norm_num)]
    simp [div_eq_mul_inv]
  rw [middle]
  refine zpow_le_zpow_right₀ (by norm_num) ?_
  rw [Format.lowestExponent, Format.extent]
  omega

section Clamps

variable {format : Format} {decimal : Decimal}

/-- A decimal far below the format is rounded to zero. -/
theorem decimal_rounds_zero (present : decimal.units ≠ 0)
    (low : decimal.exponent + (digits decimal.units).length < -format.extent) :
    format.Rounds decimal.worth 0 := by
  refine Format.rounds_zero ?_
  calc decimal.worth
      < 10 ^ (decimal.exponent + (digits decimal.units).length) := (Decimal.worth_bounds present).1
    _ ≤ 10 ^ (-format.extent) := zpow_le_zpow_right₀ (by norm_num) low.le
    _ ≤ 2 ^ (-format.extent) := by
      rw [zpow_neg, zpow_neg]
      refine inv_anti₀ (by positivity) ?_
      exact zpow_le_zpow_left₀ format.extent_nonneg (by norm_num) (by norm_num)
    _ ≤ format.midpoint 0 := midpoint_zero_ge format

/-- A decimal far above the format is rounded to infinity. -/
theorem decimal_rounds_infinity (present : decimal.units ≠ 0)
    (far : format.extent < decimal.exponent + (digits decimal.units).length) :
    format.Rounds decimal.worth format.infinityRank := by
  refine Format.rounds_infinity ?_
  calc format.worth format.infinityRank
      ≤ 2 ^ format.extent := worth_infinity_le format
    _ ≤ 10 ^ format.extent := zpow_le_zpow_left₀ format.extent_nonneg (by norm_num) (by norm_num)
    _ ≤ 10 ^ (decimal.exponent + (digits decimal.units).length - 1) :=
      zpow_le_zpow_right₀ (by norm_num) (by omega)
    _ ≤ decimal.worth := (Decimal.worth_bounds present).2

end Clamps

/-- The powers of ten far from the format are not formed, and need not be. -/
theorem of_decimal_rounds {format : Format} (negative : Bool) (decimal : Decimal) :
    (ofDecimal negative decimal : Floating format).Rounds (signed negative decimal.worth) := by
  have nonnegative : 0 ≤ decimal.worth := by
    unfold Decimal.worth
    positivity
  unfold ofDecimal
  dsimp only
  split
  next small =>
    refine ⟨negative, _, _, rfl, nonnegative, rfl, ?_⟩
    by_cases none : decimal.units = 0
    · have zero : decimal.worth = 0 := by rw [Decimal.worth, none, Nat.cast_zero, zero_mul]
      rw [zero]
      exact Format.rounds_zero ((format.worth_nonneg 0).trans_lt Format.worth_lt_midpoint)
    · exact decimal_rounds_zero none (small.resolve_left none)
  next present =>
    split
    next far =>
      exact ⟨negative, _, _, rfl, nonnegative, rfl,
        decimal_rounds_infinity (fun none => present (.inl none)) far⟩
    next =>
      rw [← decimal.ratio_worth]
      exact of_ratio_rounds negative (Interval.ten_to_pos _)

/-- A decimal is read as the number that it rounds to. -/
theorem read_rounds {format : Format} {characters : List Char} {number : ℚ}
    (spelled : SpellsDecimal characters number) :
    ∃ result : Floating format, read characters = some result ∧ result.Rounds number := by
  have given : ∀ negative {characters number}, SpellsMagnitude characters number →
      ∃ result : Floating format, (readLiteral characters).map (ofLiteral negative) = some result ∧
        result.Rounds (signed negative number) := by
    intro negative characters number spelled
    obtain ⟨decimal, found, rfl⟩ := spelled.read_literal
    rw [found]
    exact ⟨_, rfl, of_decimal_rounds negative decimal⟩
  cases spelled with
  | plus spelled => exact given false spelled
  | minus spelled => exact given true spelled
  | plain spelled =>
      obtain ⟨first, rest, rfl, start⟩ := spelled.head
      have unsigned : (read (first :: rest) : Option (Floating format)) =
          (readLiteral (first :: rest)).map (ofLiteral false) := by
        unfold read
        split
        next same =>
          obtain ⟨rfl, -⟩ := List.cons.inj same
          exact absurd start (by decide)
        next same =>
          obtain ⟨rfl, -⟩ := List.cons.inj same
          exact absurd start (by decide)
        next => rfl
      rw [unsigned]
      exact given false spelled

end QueryExec.Floating
