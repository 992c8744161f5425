import Mathlib.Data.List.TakeWhile
import Mathlib.Tactic.Lemma
import Mathlib.Tactic.SplitIfs
import Pseudocode.Json.Token
import Pseudocode.Proofs.Decimal.ReadBack

/-!
# Tokens read back

The text of a token is read as that token (`Token.spells_text`), provided that what stands behind
the point of a numeral are digits.  Two kinds of token have a text with a structure: numerals
(`numeral?_text`) and string literals (`Piece.scan_literal`).
-/

namespace Pseudocode.Json

/-! ## Runs of characters -/

/-- The characters do not go on with one that has the property `p`. -/
def EndsRun (p : Char → Bool) (cs : List Char) : Prop := ∀ c ∈ cs.head?, p c = false

/-- Nothing does not go on. -/
lemma endsRun_nil (p : Char → Bool) : EndsRun p [] := fun _ h => by cases h

/-- Characters go on with their first one. -/
@[simp]
lemma endsRun_cons {p : Char → Bool} {c : Char} {cs : List Char} :
    EndsRun p (c :: cs) ↔ p c = false := by
  simp [EndsRun]

section Run

variable {p : Char → Bool} {run rest : List Char}

/-- A run that ends is taken as a whole. -/
lemma takeWhile_run (hrun : ∀ c ∈ run, p c) (hrest : EndsRun p rest) :
    (run ++ rest).takeWhile p = run := by
  rw [List.takeWhile_append_of_pos hrun]
  cases rest with
  | nil => simp
  | cons c cs => simp [endsRun_cons.1 hrest]

/-- After a run that ends comes the rest. -/
lemma dropWhile_run (hrun : ∀ c ∈ run, p c) (hrest : EndsRun p rest) :
    (run ++ rest).dropWhile p = rest := by
  rw [List.dropWhile_append_of_pos hrun]
  cases rest with
  | nil => rfl
  | cons c cs => simp [endsRun_cons.1 hrest]

end Run

/-! ## Numerals -/

/-- The digits of a number are digits. -/
lemma isDigit_of_mem_toDigits {n : Nat} {c : Char} (hc : c ∈ Nat.toDigits 10 n) : isDigit c :=
  Nat.isDigit_of_mem_toDigits (by decide) (by decide) hc

/-- A number other than zero does not begin with a zero. -/
lemma head?_toDigits_ne_zero {n : Nat} (hn : 0 < n) : (Nat.toDigits 10 n).head? ≠ some '0' := by
  by_cases hlt : n < 10
  · rw [Nat.toDigits_of_lt_base hlt]
    simpa [Nat.digitChar_eq_zero] using hn.ne'
  · have hle : 10 ≤ n := Nat.le_of_not_lt hlt
    have hhead := head?_toDigits_ne_zero (Nat.div_pos hle (by decide))
    obtain ⟨c, cs, hcs⟩ := List.exists_cons_of_ne_nil (Nat.toDigits_ne_nil (n := n / 10) (b := 10))
    rw [hcs] at hhead
    rw [Nat.toDigits_of_base_le (by decide) hle, hcs]
    exact hhead
termination_by n

/-- The digits of a number pass for a whole part: there is one, and none is a superfluous zero. -/
lemma whole_toDigits (n : Nat) :
    ((Nat.toDigits 10 n).isEmpty ||
      ((Nat.toDigits 10 n).length > 1 && (Nat.toDigits 10 n).head? == some '0')) = false := by
  have hne : (Nat.toDigits 10 n).isEmpty = false := by simp [Nat.toDigits_ne_nil]
  rcases Nat.eq_zero_or_pos n with rfl | hn
  · rfl
  · have hhead : ((Nat.toDigits 10 n).head? == some '0') = false :=
      beq_eq_false_iff_ne.2 (head?_toDigits_ne_zero hn)
    rw [hne, hhead, Bool.and_false, Bool.or_false]

/-- Digits that are not empty pass for the digits of an exponent. -/
lemma exponentDigits_toDigits (n : Nat) :
    (!(Nat.toDigits 10 n).isEmpty && (Nat.toDigits 10 n).all isDigit) = true := by
  have hall : (Nat.toDigits 10 n).all isDigit = true :=
    List.all_eq_true.2 fun c hc => isDigit_of_mem_toDigits hc
  simp [Nat.toDigits_ne_nil, hall]

/-- The characters that write a power of ten. -/
def powerChars : Option Int → List Char
  | none => []
  | some e => 'e' :: (if e < 0 then '-' else '+') :: Nat.toDigits 10 e.natAbs

/-- The characters that write what stands behind the whole part of a numeral. -/
def fractionChars (fraction : List Char) : List Char :=
  if fraction.isEmpty then [] else '.' :: fraction

/-- A numeral is written as its sign, its whole part, its fraction and its power of ten. -/
lemma toList_text (n : Numeral) :
    (n.text true).toList = (if n.negative then ['-'] else []) ++
      (Nat.toDigits 10 n.whole ++ (fractionChars n.fraction ++ powerChars n.exponent)) := by
  obtain ⟨negative, whole, fraction, exponent⟩ := n
  have hsign : (if negative then "-" else "").toList = if negative then ['-'] else [] := by
    split_ifs <;> rfl
  have hfraction : (if fraction.isEmpty then "" else "." ++ String.ofList fraction).toList =
      fractionChars fraction := by
    unfold fractionChars
    split_ifs <;> simp
  have hpower : ∀ e, (Numeral.exponentText true e).toList = powerChars (some e) := by
    intro e
    simp only [Numeral.exponentText, powerChars]
    split_ifs <;> simp
  simp only [Numeral.text, String.toList_append, hsign, hfraction,
    Nat.toString_eq_ofList_toDigits, String.toList_ofList, List.append_assoc]
  cases exponent with
  | none => rfl
  | some e => simp only [hpower]

/-- The power of ten is read as it was written. -/
lemma power?_powerChars (e : Option Int) : power? (powerChars e) = some e := by
  cases e with
  | none => rfl
  | some e =>
    by_cases hneg : e < 0
    · have habs : -(e.natAbs : Int) = e := by omega
      simp only [powerChars, hneg, if_true, power?, exponent?, exponentDigits_toDigits,
        Nat.ofDigitChars_ten_toDigits, habs, Option.map_some]
    · have habs : (e.natAbs : Int) = e := by omega
      simp only [powerChars, hneg, if_false, power?, exponent?, exponentDigits_toDigits, if_true,
        Nat.ofDigitChars_ten_toDigits, habs, Option.map_some]

/-- No digit begins a power of ten. -/
lemma endsRun_powerChars (e : Option Int) : EndsRun isDigit (powerChars e) := by
  cases e with
  | none => exact endsRun_nil _
  | some e => exact endsRun_cons.2 rfl

/-- No digit stands right behind the whole part. -/
lemma endsRun_fractionChars (fraction : List Char) (e : Option Int) :
    EndsRun isDigit (fractionChars fraction ++ powerChars e) := by
  unfold fractionChars
  split_ifs
  · exact endsRun_powerChars e
  · exact endsRun_cons.2 rfl

/-- A numeral without its sign is read as it was written. -/
lemma unsigned?_text {n : Numeral} (hn : n.HasDigits) :
    unsigned? n.negative
      (Nat.toDigits 10 n.whole ++ (fractionChars n.fraction ++ powerChars n.exponent)) = some n := by
  obtain ⟨negative, whole, fraction, exponent⟩ := n
  have hwhole : ∀ c ∈ Nat.toDigits 10 whole, isDigit c := fun c hc => isDigit_of_mem_toDigits hc
  have hends := endsRun_fractionChars fraction exponent
  simp only [unsigned?, takeWhile_run hwhole hends, dropWhile_run hwhole hends, whole_toDigits,
    Nat.ofDigitChars_ten_toDigits]
  by_cases hempty : fraction = []
  · subst hempty
    have hpower := power?_powerChars exponent
    cases exponent with
    | none => rfl
    | some e =>
      change Option.map _ (power? (powerChars (some e))) = _
      rw [hpower]
      rfl
  · have hfraction : fractionChars fraction = '.' :: fraction := by simp [fractionChars, hempty]
    have hdigits : ∀ c ∈ fraction, isDigit c := hn
    have hpower := endsRun_powerChars exponent
    simp [hfraction, takeWhile_run hdigits hpower, dropWhile_run hdigits hpower, hempty,
      power?_powerChars]

/-- **A numeral is read as it was written.** -/
theorem numeral?_text {n : Numeral} (hn : n.HasDigits) :
    numeral? (n.text true).toList = some n := by
  have hread := unsigned?_text hn
  rw [toList_text]
  by_cases hneg : n.negative
  · rw [hneg] at hread
    rw [if_pos hneg]
    exact hread
  · rw [Bool.eq_false_iff.2 hneg] at hread
    obtain ⟨c, cs, hcs⟩ := List.exists_cons_of_ne_nil (Nat.toDigits_ne_nil (n := n.whole) (b := 10))
    have hdigit : isDigit c := isDigit_of_mem_toDigits (n := n.whole) (hcs ▸ List.mem_cons_self)
    have hminus : c ≠ '-' := by
      rintro rfl
      exact absurd hdigit (by decide)
    rw [if_neg hneg, List.nil_append]
    rw [hcs, List.cons_append] at hread ⊢
    unfold numeral?
    split
    · rename_i heq
      exact absurd (List.cons.inj heq).1 hminus
    · exact hread

/-! ## String literals -/

namespace Piece

/-- The piece adds the character `c` to what the following pieces denote. -/
def Denotes (p : Piece) (c : Char) : Prop := ∀ ps, denote (p :: ps) = (denote ps).map (c :: ·)

/-- The characters are scanned as the one piece `p`, whatever follows them. -/
def ScannedAs (cs : List Char) (p : Piece) : Prop :=
  ∀ rest, scan (cs ++ rest) = (scan rest).map fun r => (p :: r.1, r.2)

/-- A character denotes itself. -/
lemma denotes_char (c : Char) : Denotes (.char c) c := fun _ => rfl

/-- The unit of a control character denotes that character. -/
lemma denotes_unit {c : Char} (hc : c.toNat < 0x20) : Denotes (.unit c.toNat) c := by
  have hhigh : isHigh c.toNat = false := by
    simp only [isHigh, Bool.and_eq_false_iff, decide_eq_false_iff_not]
    omega
  have hlow : isLow c.toNat = false := by
    simp only [isLow, Bool.and_eq_false_iff, decide_eq_false_iff_not]
    omega
  intro ps
  rcases ps with _ | ⟨c' | l, ps⟩ <;> simp [denote, hhigh, hlow, Char.ofNat_toNat]

/-- A backslash and a letter are scanned as the character that they stand for. -/
lemma scannedAs_short {e c : Char} (he : e ≠ 'u') (hc : short? e = some c) :
    ScannedAs ['\\', e] (.char c) := by
  intro rest
  have hstep := scan.eq_4 e rest fun _ _ _ _ _ hu _ => he hu
  rw [List.cons_append, List.cons_append, List.nil_append, hstep, hc]
  cases scan rest <;> rfl

/-- A character that needs no escape is scanned as itself. -/
lemma scannedAs_char {c : Char} (hquote : c ≠ '"') (hslash : c ≠ '\\') (hc : ¬ c.toNat < 0x20) :
    ScannedAs [c] (.char c) := by
  intro rest
  have hstep := scan.eq_5 c rest hquote (fun _ _ _ _ _ h _ => hslash h) fun _ _ h _ => hslash h
  rw [List.cons_append, List.nil_append, hstep, if_neg hc]
  cases scan rest <;> rfl

/-- The number of a control character is read from its four digits. -/
lemma hex4?_padded : ∀ n < 0x20,
    (match List.replicate (4 - (Nat.toDigits 16 n).length) '0' ++ Nat.toDigits 16 n with
      | [a, b, c, d] => hex4? a b c d
      | _ => none) = some n := by
  decide

/-- A control character is scanned as its unit. -/
lemma scannedAs_control {n : Nat} (hn : n < 0x20) :
    ScannedAs ('\\' :: 'u' :: (List.replicate (4 - (Nat.toDigits 16 n).length) '0' ++
      Nat.toDigits 16 n)) (.unit n) := by
  intro rest
  have hhex := hex4?_padded n hn
  split at hhex
  · rename_i a b c d heq
    rw [heq]
    simp only [List.cons_append, List.nil_append, scan, hhex]
    cases scan rest <;> rfl
  · cases hhex

/-- The text of a character in a literal is one piece that denotes it. -/
lemma exists_piece (c : Char) :
    ∃ p : Piece, p.Denotes c ∧ ScannedAs (Token.escaped c).toList p := by
  have hshort : ∀ e, e ≠ 'u' → short? e = some c →
      ∃ p : Piece, p.Denotes c ∧ ScannedAs ['\\', e] p := fun e he hc =>
    ⟨.char c, denotes_char c, scannedAs_short he hc⟩
  unfold Token.escaped
  split
  · exact hshort '"' (by decide) rfl
  · exact hshort '\\' (by decide) rfl
  · exact hshort 'b' (by decide) rfl
  · exact hshort 'f' (by decide) rfl
  · exact hshort 'n' (by decide) rfl
  · exact hshort 'r' (by decide) rfl
  · exact hshort 't' (by decide) rfl
  · rename_i hquote hslash _ _ _ _ _
    split_ifs with hc
    · refine ⟨.unit c.toNat, denotes_unit hc, ?_⟩
      simpa using scannedAs_control hc
    · refine ⟨.char c, denotes_char c, ?_⟩
      simpa using scannedAs_char hquote hslash hc

/-- The characters of a text in a literal are scanned, up to the closing quote, as pieces that
denote them. -/
lemma exists_pieces (cs : List Char) :
    ∃ ps, denote ps = some cs ∧
      scan (cs.flatMap (fun c => (Token.escaped c).toList) ++ ['"']) = some (ps, []) := by
  induction cs with
  | nil => exact ⟨[], rfl, rfl⟩
  | cons c cs ih =>
    obtain ⟨p, hp, hscan⟩ := exists_piece c
    obtain ⟨ps, hps, hrest⟩ := ih
    refine ⟨p :: ps, by rw [hp, hps]; rfl, ?_⟩
    rw [List.flatMap_cons, List.append_assoc, hscan, hrest]
    rfl

/-- **A string literal is scanned to its end and denotes what it was written for.** -/
theorem scan_literal (s : Option String) :
    ∃ cs ps, (Token.literal s).toList = '"' :: cs ∧ scan cs = some (ps, []) ∧
      (denote ps).map String.ofList = s := by
  cases s with
  | none => exact ⟨_, [.unit 0xD800], rfl, rfl, rfl⟩
  | some s =>
    obtain ⟨ps, hps, hscan⟩ := exists_pieces s.toList
    refine ⟨s.toList.flatMap (fun c => (Token.escaped c).toList) ++ ['"'], ps, ?_, hscan, ?_⟩
    · simp [Token.literal, List.flatMap_map]
    · simp [hps]

end Piece

/-! ## Tokens -/

namespace Token

/-- Whether a token is a numeral or a word, so that it must not touch another one. -/
def isWord : Token → Bool
  | null | bool _ | number _ => true
  | _ => false

/-- A token that can be written: what stands behind the point of a numeral are digits. -/
def WellFormed : Token → Prop
  | number n => n.HasDigits
  | _ => True

/-- A digit belongs to words. -/
lemma isWordChar_of_isDigit {c : Char} (hc : isDigit c) : isWordChar c := by
  simp [isWordChar, hc]

/-- A word character is no quote, no punctuation and no blank. -/
lemma of_isWordChar {c : Char} (hc : isWordChar c) :
    c ≠ '"' ∧ punctuation? c = none ∧ isBlank c = false := by
  refine ⟨?_, ?_, ?_⟩
  · rintro rfl
    exact absurd hc (by decide)
  · unfold punctuation?
    split
    iterate 6 exact absurd hc (by decide)
    rfl
  · refine Bool.eq_false_iff.2 fun hblank => ?_
    simp only [isBlank, Bool.or_eq_true, beq_iff_eq] at hblank
    rcases hblank with ((rfl | rfl) | rfl) | rfl
    all_goals exact absurd hc (by decide)

/-- A numeral is written in word characters. -/
lemma isWordChar_of_mem_numeral {n : Numeral} (hn : n.HasDigits) {c : Char}
    (hc : c ∈ (n.text true).toList) : isWordChar c := by
  have hdigits : ∀ m, c ∈ Nat.toDigits 10 m → isWordChar c := fun m h =>
    isWordChar_of_isDigit (isDigit_of_mem_toDigits h)
  rw [toList_text] at hc
  rcases List.mem_append.1 hc with hsign | hc
  · split_ifs at hsign
    · rw [List.mem_singleton.1 hsign]
      decide
    · cases hsign
  rcases List.mem_append.1 hc with hwhole | hc
  · exact hdigits _ hwhole
  rcases List.mem_append.1 hc with hfraction | hpower
  · unfold fractionChars at hfraction
    split_ifs at hfraction
    · cases hfraction
    · rcases List.mem_cons.1 hfraction with rfl | hfraction
      · decide
      · exact isWordChar_of_isDigit (hn c hfraction)
  · rcases hexp : n.exponent with _ | e
    · rw [hexp] at hpower
      cases hpower
    · rw [hexp] at hpower
      rcases List.mem_cons.1 hpower with rfl | hpower
      · decide
      rcases List.mem_cons.1 hpower with rfl | hpower
      · split_ifs <;> decide
      · exact hdigits _ hpower

/-- The text of a word is read as that word. -/
lemma ofWord?_text {t : Token} (hword : t.isWord) (ht : t.WellFormed) :
    ofWord? t.text.toList = some t := by
  cases t with
  | null => rfl
  | bool b => cases b <;> rfl
  | number n =>
    have hread := numeral?_text ht
    have hne : ∀ w, numeral? w = none → (n.text true).toList ≠ w := by
      rintro w hw rfl
      rw [hread] at hw
      cases hw
    have hnull := hne ['n', 'u', 'l', 'l'] rfl
    have htrue := hne ['t', 'r', 'u', 'e'] rfl
    have hfalse := hne ['f', 'a', 'l', 's', 'e'] rfl
    simp only [ofWord?, text, hread, hnull, htrue, hfalse, if_false, Option.map_some]
  | _ => cases hword

/-- A word is written in word characters. -/
lemma isWordChar_of_mem_text {t : Token} (hword : t.isWord) (ht : t.WellFormed) {c : Char}
    (hc : c ∈ t.text.toList) : isWordChar c := by
  cases t with
  | null => exact List.all_eq_true.1 (rfl : "null".toList.all isWordChar = true) c hc
  | bool b =>
    cases b with
    | false => exact List.all_eq_true.1 (rfl : "false".toList.all isWordChar = true) c hc
    | true => exact List.all_eq_true.1 (rfl : "true".toList.all isWordChar = true) c hc
  | number n => exact isWordChar_of_mem_numeral ht hc
  | _ => cases hword

/-- The characters write the token, with nothing before or behind it. -/
def Spells (cs : List Char) (t : Token) : Prop :=
  ∃ c rest, cs = c :: rest ∧ isBlank c = false ∧ next? c rest = some (t, [])

/-- **A token is written by its text.** -/
theorem spells_text {t : Token} (ht : t.WellFormed) : Spells t.text.toList t := by
  by_cases hword : t.isWord
  · have hchars : ∀ c ∈ t.text.toList, isWordChar c := fun c => isWordChar_of_mem_text hword ht
    have hread := ofWord?_text hword ht
    obtain ⟨c, cs, hcs⟩ : ∃ c cs, t.text.toList = c :: cs := by
      refine List.exists_cons_of_ne_nil fun hnil => ?_
      rw [hnil] at hread
      cases hread
    rw [hcs] at hchars hread
    obtain ⟨hc, htail⟩ := List.forall_mem_cons.1 hchars
    obtain ⟨hquote, hpunct, hblank⟩ := of_isWordChar hc
    refine ⟨c, cs, hcs, hblank, ?_⟩
    simp only [next?, hquote, hpunct, hc, List.takeWhile_eq_self_iff.2 htail,
      List.dropWhile_eq_nil_iff.2 htail, hread, if_true, if_false, Option.map_some]
  · cases t with
    | null | bool _ | number _ => exact absurd rfl hword
    | string s =>
      obtain ⟨cs, ps, hcs, hscan, hdenote⟩ := Piece.scan_literal s
      refine ⟨'"', cs, hcs, rfl, ?_⟩
      simp only [next?, hscan, hdenote, if_true]
    | _ => exact ⟨_, _, rfl, rfl, rfl⟩

end Token

end Pseudocode.Json
