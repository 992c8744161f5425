import Mathlib.Tactic.Lemma
import Mathlib.Tactic.Ring
import Mathlib.Tactic.SplitIfs
import Pseudocode.Decimal.Numeral

/-!
# Numerals read back

A finite floating point number is written as a numeral and read again from it bit for bit, in every
layout (`Layout.toBinary64?_numeral`).  Nothing is assumed about how many digits suffice.

Three facts carry the proof.  The word of a decimal depends only on the number it denotes, not on
its form (`Decimal.word_shift`), so a layout may strip zeros and move the point.  The exact value of
a word is rounded to that word (`Binary64.nearestWord_quanta`), so the last resort of
`Binary64.shortest` reads back, and everything tried before it was tested to read back.  And a
layout writes the digits it is given at the place it is given.
-/

namespace Pseudocode

/-! ## Rounding a quotient -/

/-- The rounded quotient is one of the two whole numbers around the quotient. -/
lemma roundDiv_eq_or (tie : Tie) (n d : Nat) :
    roundDiv tie n d = n / d ∨ roundDiv tie n d = n / d + 1 := by
  unfold roundDiv
  grind

/-- A factor of numerator and denominator does not change the rounded quotient. -/
lemma roundDiv_mul_right (tie : Tie) (n d : Nat) {c : Nat} (hc : 0 < c) :
    roundDiv tie (n * c) (d * c) = roundDiv tie n d := by
  have hdouble : 2 * (n % d * c) = 2 * (n % d) * c := (Nat.mul_assoc 2 (n % d) c).symm
  simp only [roundDiv, Nat.mul_div_mul_right _ _ hc, Nat.mul_mod_mul_right, hdouble,
    Nat.mul_lt_mul_right hc]

namespace Binary64

/-- A factor of numerator and denominator does not change the nearest word. -/
lemma nearestWord_mul_right (n d : Nat) {c : Nat} (hc : 0 < c) :
    nearestWord (n * c) (d * c) = nearestWord n d := by
  have hnum : n * c * quantaPerUnit = n * quantaPerUnit * c := by ring
  have hden : ∀ s, d * c * Nat.pow 2 s = d * Nat.pow 2 s * c := fun s => by ring
  simp only [nearestWord, hnum, hden, Nat.mul_div_mul_right _ _ hc, roundDiv_mul_right _ _ _ hc]

/-- Equal quotients have one nearest word. -/
theorem nearestWord_congr {n d n' d' : Nat} (hd : 0 < d) (hd' : 0 < d') (h : n * d' = n' * d) :
    nearestWord n d = nearestWord n' d' := by
  calc nearestWord n d
      = nearestWord (n * d') (d * d') := (nearestWord_mul_right n d hd').symm
    _ = nearestWord (n' * d) (d' * d) := by rw [h, Nat.mul_comm d d']
    _ = nearestWord n' d' := nearestWord_mul_right n' d' hd

/-! ## The exact value of a word -/

/-- A word is its scale and its significand, put together. -/
lemma scale_mul_add_significand (w : Nat) : scale w * leadingBit + significand w = w := by
  unfold significand scale leadingBit
  omega

/-- There are quanta in one. -/
lemma quantaPerUnit_pos : 0 < quantaPerUnit := by
  unfold quantaPerUnit
  generalize 1074 = k
  exact Nat.two_pow_pos k

/-- A significand has at most 53 bits. -/
lemma significand_lt (w : Nat) : significand w < 2 ^ 53 := by
  unfold significand scale leadingBit
  omega

/-- A significand at a scale other than zero has its leading bit. -/
lemma le_significand {w : Nat} (hs : scale w ≠ 0) : 2 ^ 52 ≤ significand w := by
  unfold significand scale leadingBit at *
  omega

/-- The scale of a word is told by the size of its value. -/
lemma log2_quanta (w : Nat) : Nat.log2 (quanta w) - 52 = scale w := by
  have hlt := significand_lt w
  by_cases hs : scale w = 0
  · have hval : quanta w = significand w := by rw [quanta, hs, Nat.pow_eq, Nat.pow_zero, Nat.mul_one]
    rw [hval, hs]
    by_cases hz : significand w = 0
    · rw [hz]
      decide
    · have := (Nat.log2_lt hz).2 hlt
      omega
  · have hge := le_significand hs
    have hz : quanta w ≠ 0 := Nat.mul_ne_zero (by omega) (Nat.pow_pos (by decide)).ne'
    have hlow : 2 ^ (52 + scale w) ≤ quanta w := by
      rw [Nat.pow_add]
      exact Nat.mul_le_mul_right _ hge
    have hhigh : quanta w < 2 ^ (53 + scale w) := by
      rw [Nat.pow_add]
      exact Nat.mul_lt_mul_of_pos_right hlt (Nat.pow_pos (by decide))
    have := (Nat.le_log2 hz).2 hlow
    have := (Nat.log2_lt hz).2 hhigh
    omega

/-- **The exact value of a word is rounded to that word.** -/
theorem nearestWord_quanta (w : Nat) : nearestWord (quanta w) quantaPerUnit = w := by
  have hpos := quantaPerUnit_pos
  have hquot : quanta w * quantaPerUnit / quantaPerUnit = quanta w := Nat.mul_div_cancel _ hpos
  have hsplit : quanta w * quantaPerUnit =
      significand w * (quantaPerUnit * Nat.pow 2 (scale w)) := by
    unfold quanta
    ring
  have hround : roundDiv .toEven (quanta w * quantaPerUnit) (quantaPerUnit * Nat.pow 2 (scale w)) =
      significand w := by
    rw [hsplit]
    exact roundDiv_mul_left _ _ (Nat.mul_pos hpos (Nat.pow_pos (by decide)))
  simp only [nearestWord, hquot, log2_quanta, hround]
  exact scale_mul_add_significand w

end Binary64

/-! ## Decimals -/

namespace Decimal

/-- Powers of ten put zeros behind the digits. -/
lemma toDigits_mul_pow {m : Nat} (hm : 0 < m) (k : Nat) :
    Nat.toDigits 10 (m * 10 ^ k) = Nat.toDigits 10 m ++ List.replicate k '0' := by
  induction k with
  | zero => simp
  | succ k ih =>
    have hpos : 0 < m * 10 ^ k := Nat.mul_pos hm (Nat.pow_pos (by decide))
    have hstep : m * 10 ^ (k + 1) = 10 * (m * 10 ^ k) + 0 := by ring
    rw [hstep, ← Nat.toDigits_append_toDigits (by decide) hpos (by decide), ih, List.append_assoc,
      List.replicate_succ']
    rfl

/-- A number has at most `k` digits if it is below the power of ten. -/
lemma digitCount_le_iff {n k : Nat} (hk : 0 < k) : digitCount n ≤ k ↔ n < Nat.pow 10 k :=
  Nat.length_toDigits_le_iff (by decide) hk

/-- Powers of ten add to the number of digits. -/
lemma digitCount_mul_pow {m : Nat} (hm : 0 < m) (k : Nat) :
    digitCount (m * 10 ^ k) = digitCount m + k := by
  simp [digitCount, toDigits_mul_pow hm]

/-- **The word of a decimal depends on the number only**: zeros may be put behind the significand
if the exponent is lowered by as many. -/
theorem word_shift (m k : Nat) (e : Int) : word ⟨m * 10 ^ k, e - k⟩ = word ⟨m, e⟩ := by
  rcases Nat.eq_zero_or_pos m with rfl | hm
  · simp [word]
  · have hlead : lead ⟨m * 10 ^ k, e - k⟩ = lead ⟨m, e⟩ := by
      simp only [lead, digitCount_mul_pow hm]
      omega
    have hcross : numerator ⟨m * 10 ^ k, e - k⟩ * denominator ⟨m, e⟩ =
        numerator ⟨m, e⟩ * denominator ⟨m * 10 ^ k, e - k⟩ := by
      have hexp : k + (e - k).toNat + (-e).toNat = e.toNat + (-(e - k)).toNat := by omega
      simp only [numerator, denominator, Nat.pow_eq]
      calc m * 10 ^ k * 10 ^ (e - k).toNat * 10 ^ (-e).toNat
          = m * 10 ^ (k + (e - k).toNat + (-e).toNat) := by ring
        _ = m * 10 ^ e.toNat * 10 ^ (-(e - k)).toNat := by rw [hexp]; ring
    have hzero : m * 10 ^ k ≠ 0 := Nat.mul_ne_zero hm.ne' (Nat.pow_pos (by decide)).ne'
    simp only [word, hlead, hm.ne', hzero, if_false,
      Binary64.nearestWord_congr (denominator_pos _) (denominator_pos _) hcross]

/-- Zero has the word zero. -/
@[simp]
lemma word_zero (e : Int) : word ⟨0, e⟩ = 0 := rfl

end Decimal

namespace Binary64

/-! ## Shortest decimals -/

/-- A word with a bounded scale has a bounded value. -/
lemma quanta_lt {w k : Nat} (hk : scale w ≤ k) : quanta w < Nat.pow 2 (53 + k) := by
  calc quanta w
      < 2 ^ 53 * 2 ^ scale w :=
        Nat.mul_lt_mul_of_pos_right (significand_lt w) (Nat.two_pow_pos _)
    _ ≤ 2 ^ 53 * 2 ^ k := Nat.mul_le_mul_left _ (Nat.pow_le_pow_right (by decide) hk)
    _ = 2 ^ (53 + k) := (Nat.pow_add 2 53 k).symm

/-- A word other than zero has a quantum. -/
lemma quanta_pos {w : Nat} (hw : 0 < w) : 0 < quanta w := by
  have hsig : 0 < significand w := by
    unfold significand scale leadingBit
    omega
  exact Nat.mul_pos hsig (Nat.two_pow_pos _)

/-- The first digit of the exact value of a finite word stands in the range in which decimals are
rounded. -/
lemma lead_exactDecimal {w : Nat} (hpos : 0 < w) (hw : w < infinityWord) :
    Decimal.leastLead ≤ (exactDecimal w).lead ∧ (exactDecimal w).lead ≤ Decimal.greatestLead := by
  have hscale : scale w ≤ 2045 := by
    unfold scale leadingBit infinityWord at *
    omega
  have hquanta := quanta_pos hpos
  have hfive : 0 < Nat.pow 5 1074 := by decide +kernel
  have hhigh : Decimal.digitCount (quanta w * Nat.pow 5 1074) ≤ 1384 := by
    have hlt := Nat.mul_lt_mul_of_pos_right (quanta_lt hscale) hfive
    refine (Decimal.digitCount_le_iff (by decide)).2 (Nat.lt_of_lt_of_le hlt ?_)
    decide +kernel
  have hlow : ¬ Decimal.digitCount (quanta w * Nat.pow 5 1074) ≤ 744 := by
    rw [Decimal.digitCount_le_iff (by decide), Nat.not_lt]
    refine Nat.le_trans ?_ (Nat.le_mul_of_pos_left _ hquanta)
    decide +kernel
  unfold Decimal.lead Decimal.leastLead Decimal.greatestLead exactDecimal
  constructor <;> simp only <;> omega

/-- The exact value of a finite word has that word. -/
lemma word_exactDecimal {w : Nat} (hpos : 0 < w) (hw : w < infinityWord) :
    (exactDecimal w).word = w := by
  obtain ⟨hlow, hhigh⟩ := lead_exactDecimal hpos hw
  have hzero : (exactDecimal w).significand ≠ 0 :=
    Nat.mul_ne_zero (quanta_pos hpos).ne' (by decide +kernel)
  have hcross : (exactDecimal w).numerator * quantaPerUnit =
      quanta w * (exactDecimal w).denominator := by
    have hone : Nat.pow 10 (Int.toNat (-1074)) = 1 := rfl
    have hten : Nat.pow 5 1074 * quantaPerUnit = Nat.pow 10 (Int.toNat (- -1074)) := by
      decide +kernel
    change quanta w * Nat.pow 5 1074 * Nat.pow 10 (Int.toNat (-1074)) * quantaPerUnit =
      quanta w * Nat.pow 10 (Int.toNat (- -1074))
    rw [hone, Nat.mul_one, Nat.mul_assoc, hten]
  rw [Decimal.word, if_neg hzero, if_neg (by omega), if_neg (by omega),
    nearestWord_congr (Decimal.denominator_pos _) quantaPerUnit_pos hcross]
  exact nearestWord_quanta w

/-- What is tried for a number of digits is only taken if it reads back. -/
lemma word_neighbour? {tie : Tie} {w digits : Nat} {d : Decimal}
    (h : neighbour? tie w digits = some d) : d.word = w := by
  simp only [neighbour?] at h
  generalize lead w - (digits : Int) = e at h
  generalize quanta w * Nat.pow 10 (-e).toNat = n at h
  generalize quantaPerUnit * Nat.pow 10 e.toNat = q at h
  split_ifs at h with hbelow habove habove
  · cases h
    rcases roundDiv_eq_or tie n q with hround | hround
    · rw [hround, hbelow]
    · rw [hround, habove]
  · cases h
    exact hbelow
  · cases h
    exact habove

/-- **The shortest decimal of a finite word has that word.** -/
theorem word_shortest (tie : Tie) {w : Nat} (hpos : 0 < w) (hw : w < infinityWord) :
    (shortest tie w).word = w := by
  unfold shortest
  rcases hfound : (List.range' 1 17).findSome? (neighbour? tie w) with _ | d
  · exact word_exactDecimal hpos hw
  · obtain ⟨digits, _, hd⟩ := List.exists_of_findSome?_eq_some hfound
    exact word_neighbour? hd

/-! ## Signs -/

/-- Sign and magnitude determine a number. -/
lemma ofSigned_magnitude (x : Binary64) : ofSigned x.negative x.magnitude = x := by
  obtain ⟨bits⟩ := x
  have hlt := bits.toNat_lt
  have hval : (if signBit ≤ bits.toNat then signBit + bits.toNat % signBit
      else bits.toNat % signBit) = bits.toNat := by
    unfold signBit
    split_ifs <;> omega
  simp only [ofSigned, negative, magnitude, decide_eq_true_eq, hval, UInt64.ofNat_toNat]

/-- A number made of a sign and a word has that word without the sign. -/
lemma magnitude_ofSigned (negative : Bool) {w : Nat} (hw : w < infinityWord) :
    (ofSigned negative w).magnitude = w := by
  unfold infinityWord at hw
  simp only [magnitude, ofSigned, signBit, UInt64.toNat_ofNat']
  split_ifs <;> omega

/-- A number that is read is finite. -/
lemma isFinite_of_ofDecimal? {negative : Bool} {d : Decimal} {x : Binary64}
    (h : ofDecimal? negative d = some x) : x.isFinite := by
  unfold ofDecimal? at h
  split_ifs at h with hlt
  cases h
  rw [isFinite, magnitude_ofSigned negative hlt]
  exact decide_eq_true hlt

/-- A finite number is read from its sign and a decimal with its word. -/
lemma ofDecimal?_of_word_eq {x : Binary64} {d : Decimal} (hx : x.isFinite)
    (hword : d.word = x.magnitude) : ofDecimal? x.negative d = some x := by
  have hlt : x.magnitude < infinityWord := of_decide_eq_true hx
  rw [ofDecimal?, hword, if_pos hlt, ofSigned_magnitude]

end Binary64

/-! ## Layouts -/

/-- What stands behind the point of a numeral are digits. -/
def Numeral.HasDigits (n : Numeral) : Prop := ∀ c ∈ n.fraction, c.isDigit

namespace Layout

/-- The number that the digits `ds` denote with the point after the first `point` of them. -/
def denoted (ds : List Char) (point : Int) : Decimal :=
  ⟨Nat.ofDigitChars 10 ds 0, point - ds.length⟩

/-- The digits, with zeros in front of them where the point stands left of the first one. -/
def padded (ds : List Char) (point : Int) : List Char := List.replicate (-point).toNat '0' ++ ds

/-- How many zeros are missing between the last digit and the point. -/
def missing (ds : List Char) (point : Int) : Nat := point.toNat - (padded ds point).length

/-- The digits before the point. -/
def wholeDigits (ds : List Char) (point : Int) : List Char :=
  (padded ds point).take point.toNat ++ List.replicate (missing ds point) '0'

/-- The digits behind the point. -/
def fractionDigits (ds : List Char) (point : Int) : List Char := (padded ds point).drop point.toNat

/-- Digits laid out without a power of ten, part by part. -/
lemma place_eq (l : Layout) (negative : Bool) (ds : List Char) (point : Int) :
    l.place negative ds point = ⟨negative, Nat.ofDigitChars 10 (wholeDigits ds point) 0,
      if (fractionDigits ds point).isEmpty && l.keepsPoint then ['0'] else fractionDigits ds point,
      none⟩ := rfl

/-- The two sides of the point together are the digits and the missing zeros. -/
lemma wholeDigits_append_fractionDigits (ds : List Char) (point : Int) :
    wholeDigits ds point ++ fractionDigits ds point =
      padded ds point ++ List.replicate (missing ds point) '0' := by
  unfold wholeDigits fractionDigits
  rcases Nat.le_total point.toNat (padded ds point).length with hle | hge
  · have hnone : missing ds point = 0 := Nat.sub_eq_zero_of_le hle
    simp [hnone]
  · have htake : (padded ds point).take point.toNat = padded ds point := List.take_of_length_le hge
    have hdrop : (padded ds point).drop point.toNat = [] := List.drop_of_length_le hge
    simp [htake, hdrop]

/-- The two sides of the point denote the number that the digits are given for. -/
lemma word_digits (ds : List Char) (point : Int) :
    Decimal.word ⟨Nat.ofDigitChars 10 (fractionDigits ds point)
      (Nat.ofDigitChars 10 (wholeDigits ds point) 0), -(fractionDigits ds point).length⟩ =
        (denoted ds point).word := by
  have hvalue : Nat.ofDigitChars 10 (fractionDigits ds point)
      (Nat.ofDigitChars 10 (wholeDigits ds point) 0) =
        Nat.ofDigitChars 10 ds 0 * 10 ^ missing ds point := by
    rw [← Nat.ofDigitChars_append, wholeDigits_append_fractionDigits]
    simp [padded, Nat.ofDigitChars_append, Nat.mul_comm]
  have hlength : -((fractionDigits ds point).length : Int) =
      point - ds.length - missing ds point := by
    simp only [fractionDigits, missing, padded, List.length_drop, List.length_append,
      List.length_replicate]
    omega
  rw [hvalue, hlength]
  exact Decimal.word_shift _ _ _

/-- Digits laid out without a power of ten denote the number they are given for. -/
lemma word_place (l : Layout) (negative : Bool) (ds : List Char) (point : Int) :
    (l.place negative ds point).toDecimal.word = (denoted ds point).word := by
  rw [place_eq, ← word_digits]
  split_ifs with hpoint
  · -- A zero is put behind the point of a whole number.
    have hnil : fractionDigits ds point = [] :=
      List.isEmpty_iff.1 (Bool.and_eq_true_iff.1 hpoint).1
    have hshift := Decimal.word_shift (Nat.ofDigitChars 10 (wholeDigits ds point) 0) 1 0
    simpa [Numeral.toDecimal, Nat.ofDigitChars_cons, hnil, Nat.mul_comm] using hshift
  · simp only [Numeral.toDecimal, Option.getD_none, Int.zero_sub]

/-- Digits laid out with a power of ten denote the number they are given for. -/
lemma word_scientific (negative : Bool) {ds : List Char} (hds : ds ≠ []) (point : Int) :
    (scientific negative ds point).toDecimal.word = (denoted ds point).word := by
  have hpos : 0 < ds.length := List.length_pos_iff.2 hds
  have hvalue : Nat.ofDigitChars 10 (ds.drop 1) (Nat.ofDigitChars 10 (ds.take 1) 0) =
      Nat.ofDigitChars 10 ds 0 := by
    rw [← Nat.ofDigitChars_append, List.take_append_drop]
  have hplace : point - 1 - ((ds.drop 1).length : Int) = point - ds.length := by
    rw [List.length_drop]
    omega
  simp only [Numeral.toDecimal, scientific, denoted, hvalue, Option.getD_some, hplace]

/-- The digits of a number without the zeros at their end. -/
def stripped (n : Nat) : List Char :=
  ((Nat.toDigits 10 n).reverse.dropWhile (· == '0')).reverse

/-- The digits of a number are the stripped ones and zeros. -/
lemma exists_toDigits_eq (n : Nat) :
    ∃ k, Nat.toDigits 10 n = stripped n ++ List.replicate k '0' := by
  let zeros := (Nat.toDigits 10 n).reverse.takeWhile (· == '0')
  have hzeros : zeros = List.replicate zeros.length '0' := by
    refine List.eq_replicate_iff.2 ⟨rfl, fun c hc => ?_⟩
    exact eq_of_beq (List.all_eq_true.1 List.all_takeWhile c hc)
  have hsplit : (stripped n).reverse = (Nat.toDigits 10 n).reverse.dropWhile (· == '0') :=
    List.reverse_reverse _
  refine ⟨zeros.length, List.reverse_inj.1 ?_⟩
  rw [List.reverse_append, List.reverse_replicate, ← hzeros, hsplit]
  exact List.takeWhile_append_dropWhile.symm

/-- Stripped digits denote the number they come from, if the point is put where its first digit
stands. -/
lemma word_stripped (d : Decimal) : (denoted (stripped d.significand) d.lead).word = d.word := by
  obtain ⟨m, e⟩ := d
  obtain ⟨k, hk⟩ := exists_toDigits_eq m
  have hvalue : Nat.ofDigitChars 10 (stripped m) 0 * 10 ^ k = m := by
    calc Nat.ofDigitChars 10 (stripped m) 0 * 10 ^ k
        = Nat.ofDigitChars 10 (Nat.toDigits 10 m) 0 := by
          simp [hk, Nat.ofDigitChars_append, Nat.mul_comm]
      _ = m := Nat.ofDigitChars_ten_toDigits
  have hlead : Decimal.lead ⟨m, e⟩ - (stripped m).length = e + k := by
    simp only [Decimal.lead, Decimal.digitCount, hk, List.length_append, List.length_replicate]
    omega
  have hshift := Decimal.word_shift (Nat.ofDigitChars 10 (stripped m) 0) k (e + k)
  rw [hvalue, Int.add_sub_cancel] at hshift
  rw [denoted, hlead, hshift]

/-- The numeral of a number other than zero: its shortest decimal, stripped and laid out. -/
lemma numeral_of_ne_zero (l : Layout) {x : Binary64} (hx : x.magnitude ≠ 0) {d : Decimal}
    (hd : Binary64.shortest l.tie x.magnitude = d) :
    l.numeral x = if l.positional (d.lead - 1) then
        l.place x.negative (stripped d.significand) d.lead
      else scientific x.negative (stripped d.significand) d.lead := by
  subst hd
  exact if_neg hx

/-- **The numeral of a finite number is read as that number**, in every layout. -/
theorem toBinary64?_numeral (l : Layout) {x : Binary64} (hx : x.isFinite) :
    (l.numeral x).toBinary64? = some x := by
  have hlt : x.magnitude < Binary64.infinityWord := of_decide_eq_true hx
  suffices h : (l.numeral x).negative = x.negative ∧ (l.numeral x).toDecimal.word = x.magnitude by
    rw [Numeral.toBinary64?, h.1]
    exact Binary64.ofDecimal?_of_word_eq hx h.2
  by_cases hzero : x.magnitude = 0
  · have hnumeral : l.numeral x = l.place x.negative [] 0 := by rw [numeral, if_pos hzero]
    rw [hnumeral, word_place, hzero]
    exact ⟨rfl, Decimal.word_zero _⟩
  · obtain ⟨d, hd⟩ : ∃ d, Binary64.shortest l.tie x.magnitude = d := ⟨_, rfl⟩
    have hword : d.word = x.magnitude :=
      hd ▸ Binary64.word_shortest l.tie (Nat.pos_of_ne_zero hzero) hlt
    rw [l.numeral_of_ne_zero hzero hd]
    split_ifs
    · rw [word_place, word_stripped, hword]
      exact ⟨rfl, rfl⟩
    · have hds : stripped d.significand ≠ [] := by
        intro hnil
        have hdenoted := word_stripped d
        rw [hnil, hword] at hdenoted
        exact hzero (hdenoted.symm.trans (Decimal.word_zero _))
      rw [word_scientific _ hds, word_stripped, hword]
      exact ⟨rfl, rfl⟩

/-- Digits without a power of ten stay digits, with zeros put around them. -/
lemma hasDigits_place (l : Layout) (negative : Bool) {ds : List Char} (point : Int)
    (hds : ∀ c ∈ ds, c.isDigit) : (l.place negative ds point).HasDigits := by
  have hpadded : ∀ c ∈ padded ds point, c.isDigit := by
    intro c hc
    rcases List.mem_append.1 hc with hzero | hc
    · rw [List.eq_of_mem_replicate hzero]
      decide
    · exact hds c hc
  rw [place_eq]
  intro c hc
  simp only at hc
  split_ifs at hc
  · rw [List.mem_singleton.1 hc]
    decide
  · exact hpadded c (List.mem_of_mem_drop hc)

/-- A layout puts nothing but digits behind the point. -/
lemma hasDigits_numeral (l : Layout) (x : Binary64) : (l.numeral x).HasDigits := by
  by_cases hzero : x.magnitude = 0
  · rw [numeral, if_pos hzero]
    exact hasDigits_place l _ _ fun c hc => absurd hc List.not_mem_nil
  · have hds : ∀ n, ∀ c ∈ stripped n, c.isDigit := by
      intro n c hc
      obtain ⟨k, hk⟩ := exists_toDigits_eq n
      refine Nat.isDigit_of_mem_toDigits (by decide) (by decide) (b := 10) (n := n) ?_
      rw [hk]
      exact List.mem_append_left _ hc
    rw [l.numeral_of_ne_zero hzero rfl]
    split_ifs
    · exact hasDigits_place l _ _ (hds _)
    · exact fun c hc => hds _ c (List.mem_of_mem_drop hc)

end Layout

end Pseudocode
