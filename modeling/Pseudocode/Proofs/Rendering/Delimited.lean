import Mathlib.Data.List.Forall2
import Mathlib.Data.Nat.Basic
import Mathlib.Tactic.Lemma
import Mathlib.Tactic.SplitIfs
import Pseudocode.Address
import Pseudocode.Text.Quoted

/-!
# Texts that show where they end

Two texts that begin the same longer text need not be equal, since one may go on where the other has
ended.  The texts of this file cannot: whatever follows them, they end at the same place.
`Settles P s t` says so of the texts `s` and `t`, and that then `P` holds.

What settles is put together in sequence (`Settles.append`), the later parts using what the earlier
ones have settled.  The parts are a run of characters up to a delimiter that it does not contain
(`settles_run`), a list in brackets of texts that settle (`settles_bracketed`), and a text in quotes
(`settles_quoted`), which may contain any character but marks its quotes by a backslash.
-/

namespace Pseudocode

universe u

namespace Text

/-- If texts begin the same text, whatever follows, they end at the same place and `P` holds. -/
def Settles (P : Prop) (s t : String) : Prop :=
  ∀ r r' : List Char, s.toList ++ r = t.toList ++ r' → P ∧ r = r'

variable {P Q : Prop} {s t s' t' : String}

/-- A text ends where it ends. -/
lemma settles_self (s : String) : Settles True s s :=
  fun _ _ h => ⟨trivial, List.append_cancel_left h⟩

/-- What is settled may be weakened. -/
lemma Settles.imp (h : Settles P s t) (hPQ : P → Q) : Settles Q s t := by
  intro r r' heq
  obtain ⟨hP, hr⟩ := h r r' heq
  exact ⟨hPQ hP, hr⟩

/-- Texts that settle one after the other settle together. -/
lemma Settles.append (h : Settles P s t) (h' : P → Settles Q s' t') :
    Settles (P ∧ Q) (s ++ s') (t ++ t') := by
  intro r r' heq
  rw [String.toList_append, String.toList_append, List.append_assoc, List.append_assoc] at heq
  obtain ⟨hP, hrest⟩ := h _ _ heq
  obtain ⟨hQ, hr⟩ := h' hP r r' hrest
  exact ⟨⟨hP, hQ⟩, hr⟩

/-- Texts that begin differently do not begin the same text. -/
lemma settles_of_head_ne {a b : Char} (hs : s.toList.head? = some a)
    (ht : t.toList.head? = some b) (hne : a ≠ b) : Settles P s t := by
  intro r r' heq
  have hhead := congrArg List.head? heq
  rw [List.head?_append, List.head?_append, hs, ht] at hhead
  exact absurd (Option.some.inj hhead) hne

/-! ## Runs -/

/-- Two runs without a delimiter that are followed by it are equal. -/
lemma eq_of_append_cons {c : Char} {xs ys r r' : List Char} (hx : c ∉ xs) (hy : c ∉ ys)
    (h : xs ++ c :: r = ys ++ c :: r') : xs = ys ∧ r = r' := by
  rcases List.append_eq_append_iff.1 h with ⟨mid, rfl, hmid⟩ | ⟨mid, rfl, hmid⟩
  · rcases mid with - | ⟨d, mid⟩
    · exact ⟨(List.append_nil xs).symm, (List.cons.inj hmid).2⟩
    · obtain ⟨rfl, -⟩ := List.cons.inj hmid
      exact absurd (List.mem_append_right xs List.mem_cons_self) hy
  · rcases mid with - | ⟨d, mid⟩
    · exact ⟨List.append_nil ys, (List.cons.inj hmid).2.symm⟩
    · obtain ⟨rfl, -⟩ := List.cons.inj hmid
      exact absurd (List.mem_append_right ys List.mem_cons_self) hx

/-- A run ends where a text follows that begins with a character which is not in the run. -/
lemma settles_run {u : String} {c : Char} (hu : u.toList.head? = some c) (hs : c ∉ s.toList)
    (ht : c ∉ t.toList) : Settles (s = t) (s ++ u) (t ++ u) := by
  obtain ⟨cs, hcs⟩ := List.head?_eq_some_iff.1 hu
  intro r r' heq
  rw [String.toList_append, String.toList_append, hcs, List.append_assoc, List.append_assoc] at heq
  obtain ⟨hst, hrest⟩ := eq_of_append_cons hs ht heq
  exact ⟨String.toList_inj.1 hst, List.append_cancel_left hrest⟩

/-! ## Lists -/

/-- Texts in brackets, divided by commas. -/
def bracketed (texts : List String) : String := "[" ++ ", ".intercalate texts ++ "]"

/-- Every text but the first follows a comma. -/
lemma toList_bracketed_cons (x : String) (xs : List String) :
    (bracketed (x :: xs)).toList =
      '[' :: (x.toList ++ ((xs.flatMap fun x => ", ".toList ++ x.toList) ++ [']'])) := by
  have hcommas : ∀ xs : List String, ", ".toList.intercalate (x.toList :: xs.map String.toList) =
      x.toList ++ xs.flatMap fun x => ", ".toList ++ x.toList := by
    intro xs
    induction xs generalizing x with
    | nil => simp
    | cons y ys ih =>
      rw [List.map_cons, List.intercalate_cons_cons, ih, List.flatMap_cons, List.append_assoc,
        List.append_assoc]
  rw [bracketed, String.toList_append, String.toList_append, String.toList_intercalate,
    List.map_cons, hcommas, List.append_assoc, List.append_assoc]
  rfl

section Bracketed

variable {α : Type u} {R : α → α → Prop} {f : α → String} {as bs : List α}

/-- Texts that settle settle as a list, each after a comma, up to a closing bracket. -/
lemma forall₂_of_commas (h : ∀ a ∈ as, ∀ b ∈ bs, Settles (R a b) (f a) (f b)) {r r' : List Char}
    (heq : (as.flatMap fun a => ", ".toList ++ (f a).toList) ++ ']' :: r =
      (bs.flatMap fun b => ", ".toList ++ (f b).toList) ++ ']' :: r') :
    List.Forall₂ R as bs ∧ r = r' := by
  induction as generalizing bs with
  | nil =>
    rcases bs with - | ⟨b, bs⟩
    · exact ⟨.nil, (List.cons.inj heq).2⟩
    · exact absurd (List.cons.inj heq).1 (by decide)
  | cons a as ih =>
    rcases bs with - | ⟨b, bs⟩
    · exact absurd (List.cons.inj heq).1 (by decide)
    · rw [List.flatMap_cons, List.flatMap_cons, List.append_assoc, List.append_assoc,
        List.append_assoc, List.append_assoc] at heq
      obtain ⟨hab, hrest⟩ :=
        h a List.mem_cons_self b List.mem_cons_self _ _ (List.append_cancel_left heq)
      obtain ⟨htail, hr⟩ := ih (fun a' ha' b' hb' =>
        h a' (List.mem_cons_of_mem a ha') b' (List.mem_cons_of_mem b hb')) hrest
      exact ⟨.cons hab htail, hr⟩

/-- Texts that settle, and begin with a character other than the closing bracket, settle as a list
in brackets. -/
theorem settles_bracketed {c : Char} (hc : c ≠ ']')
    (hhead : ∀ a ∈ as ++ bs, (f a).toList.head? = some c)
    (h : ∀ a ∈ as, ∀ b ∈ bs, Settles (R a b) (f a) (f b)) :
    Settles (List.Forall₂ R as bs) (bracketed (as.map f)) (bracketed (bs.map f)) := by
  -- A list with a first text does not begin as the empty list does.
  have hclash : ∀ a ∈ as ++ bs, ∀ xs r r',
      (bracketed (f a :: xs)).toList ++ r ≠ (bracketed []).toList ++ r' := by
    intro a ha xs r r' heq
    have hnil : (bracketed []).toList = ['[', ']'] := by decide
    rw [toList_bracketed_cons, hnil, List.cons_append, List.cons_append, List.append_assoc] at heq
    have hfirst := congrArg List.head? (List.cons.inj heq).2
    rw [List.head?_append, hhead a ha] at hfirst
    exact hc (Option.some.inj hfirst)
  rcases as with - | ⟨a, as⟩
  · rcases bs with - | ⟨b, bs⟩
    · exact (settles_self _).imp fun _ => .nil
    · exact fun r r' heq => absurd heq.symm (hclash b List.mem_cons_self _ _ _)
  · rcases bs with - | ⟨b, bs⟩
    · exact fun r r' heq => absurd heq (hclash a List.mem_cons_self _ _ _)
    · intro r r' heq
      rw [List.map_cons, List.map_cons, toList_bracketed_cons, toList_bracketed_cons,
        List.flatMap_map, List.flatMap_map] at heq
      simp only [List.cons_append, List.append_assoc] at heq
      obtain ⟨hab, hrest⟩ :=
        h a List.mem_cons_self b List.mem_cons_self _ _ (List.cons.inj heq).2
      obtain ⟨htail, hr⟩ := forall₂_of_commas (fun a' ha' b' hb' =>
        h a' (List.mem_cons_of_mem a ha') b' (List.mem_cons_of_mem b hb')) hrest
      exact ⟨.cons hab htail, hr⟩

end Bracketed

/-! ## Quotes -/

/-- What stands before the first quote that no backslash marks, and what stands behind it. -/
def splitAtQuote : List Char → List Char × List Char
  | [] => ([], [])
  | '"' :: cs => ([], cs)
  | '\\' :: c :: cs => ('\\' :: c :: (splitAtQuote cs).1, (splitAtQuote cs).2)
  | c :: cs => (c :: (splitAtQuote cs).1, (splitAtQuote cs).2)

/-- Characters before the next quote belong to what stands before it. -/
def Precedes (cs : List Char) : Prop :=
  ∀ rest, splitAtQuote (cs ++ rest) = (cs ++ (splitAtQuote rest).1, (splitAtQuote rest).2)

/-- Characters that precede a quote do so one after the other. -/
lemma Precedes.append {cs ds : List Char} (hcs : Precedes cs) (hds : Precedes ds) :
    Precedes (cs ++ ds) := by
  intro rest
  rw [List.append_assoc, hcs, hds, List.append_assoc]

/-- Characters that are neither quotes nor backslashes precede a quote. -/
lemma precedes_of_plain {cs : List Char} (h : ∀ c ∈ cs, c ≠ '"' ∧ c ≠ '\\') : Precedes cs := by
  intro rest
  induction cs with
  | nil => rfl
  | cons c cs ih =>
    obtain ⟨⟨hquote, hslash⟩, hcs⟩ := List.forall_mem_cons.1 h
    rw [List.cons_append, splitAtQuote, ih hcs, List.cons_append]
    · exact hquote
    · intro d ds hd
      exact absurd hd hslash

/-- A backslash and what it marks precede a quote. -/
lemma precedes_of_marked (c : Char) : Precedes ['\\', c] := fun _ => rfl

end Text

/-! ## Numbers -/

/-- The digits of a number are below the base. -/
lemma exists_digit_of_mem_toDigits {b n : Nat} {c : Char} (hb : 1 < b)
    (hc : c ∈ Nat.toDigits b n) : ∃ d < b, c = d.digitChar := by
  by_cases hlt : n < b
  · rw [Nat.toDigits_of_lt_base hlt] at hc
    exact ⟨n, hlt, List.mem_singleton.1 hc⟩
  · have hle : b ≤ n := Nat.le_of_not_lt hlt
    have hdiv : n / b < n := Nat.div_lt_self (by omega) hb
    rw [Nat.toDigits_of_base_le hb hle] at hc
    rcases List.mem_append.1 hc with hc | hc
    · exact exists_digit_of_mem_toDigits hb hc
    · exact ⟨n % b, Nat.mod_lt n (by omega), List.mem_singleton.1 hc⟩
termination_by n

/-- Different numbers have different upper-case hexadecimal digits. -/
lemma eq_of_upper_toDigits {m n : Nat}
    (h : (Nat.toDigits 16 m).map Char.toUpper = (Nat.toDigits 16 n).map Char.toUpper) : m = n := by
  have hdigit : ∀ d < 16, ∀ e < 16, d.digitChar.toUpper = e.digitChar.toUpper → d = e := by decide
  -- The last digit is the remainder, and those before it are the digits of the quotient.
  have hlast : ∀ k, ∃ ds, (Nat.toDigits 16 k).map Char.toUpper =
      ds ++ [(k % 16).digitChar.toUpper] ∧
      (k < 16 ∧ ds = [] ∨ 16 ≤ k ∧ ds = (Nat.toDigits 16 (k / 16)).map Char.toUpper) := by
    intro k
    rcases Nat.lt_or_ge k 16 with hk | hk
    · refine ⟨[], ?_, .inl ⟨hk, rfl⟩⟩
      rw [Nat.toDigits_of_lt_base hk, Nat.mod_eq_of_lt hk]
      rfl
    · refine ⟨_, ?_, .inr ⟨hk, rfl⟩⟩
      rw [Nat.toDigits_of_base_le (by decide) hk, List.map_append]
      rfl
  have hne : ∀ k, (Nat.toDigits 16 k).map Char.toUpper ≠ [] := by
    intro k hnil
    exact Nat.toDigits_ne_nil (List.map_eq_nil_iff.1 hnil)
  obtain ⟨ds, hds, hm⟩ := hlast m
  obtain ⟨es, hes, hn⟩ := hlast n
  rw [hds, hes] at h
  obtain ⟨hinit, hrest⟩ := List.append_inj' h rfl
  have hmod : m % 16 = n % 16 :=
    hdigit _ (Nat.mod_lt _ (by decide)) _ (Nat.mod_lt _ (by decide)) (List.cons.inj hrest).1
  rcases hm with ⟨hlt, rfl⟩ | ⟨hle, rfl⟩
  · rcases hn with ⟨hlt', -⟩ | ⟨hle', rfl⟩
    · omega
    · exact absurd hinit.symm (hne _)
  · rcases hn with ⟨hlt', rfl⟩ | ⟨hle', rfl⟩
    · exact absurd hinit (hne _)
    · have hdiv : m / 16 = n / 16 := eq_of_upper_toDigits hinit
      omega
termination_by m

namespace Address

/-- Different addresses have different texts. -/
lemma eq_of_text {a b : Address} (h : a.text = b.text) : a = b := by
  have hdigits : String.ofList ((Nat.toDigits 16 a.toNat).map Char.toUpper) =
      String.ofList ((Nat.toDigits 16 b.toNat).map Char.toUpper) := by
    have hlist := congrArg String.toList h
    rw [text, text, String.toList_append, String.toList_append] at hlist
    exact String.toList_inj.1 (List.append_cancel_left hlist)
  rw [String.ofList_inj] at hdigits
  exact UInt64.toNat_inj.1 (eq_of_upper_toDigits hdigits)

/-- An address is written with letters and digits. -/
lemma isAlphanum_of_mem_text {c : Char} {a : Address} (hc : c ∈ a.text.toList) : c.isAlphanum := by
  have hdigit : ∀ d < 16, d.digitChar.toUpper.isAlphanum := by decide
  rw [text, String.toList_append] at hc
  rcases List.mem_append.1 hc with hc | hc
  · have hzero : ∀ c ∈ ['0', 'x'], c.isAlphanum := by simp
    exact hzero c hc
  · rw [String.toList_ofList] at hc
    obtain ⟨low, hlow, rfl⟩ := List.mem_map.1 hc
    obtain ⟨d, hd, rfl⟩ := exists_digit_of_mem_toDigits (by decide) hlow
    exact hdigit d hd

end Address

namespace Text

variable {s t : String}

/-- What neither of two texts contains, both together do not contain. -/
lemma notMem_append {c : Char} (hs : c ∉ s.toList) (ht : c ∉ t.toList) : c ∉ (s ++ t).toList := by
  rw [String.toList_append]
  intro hmem
  rcases List.mem_append.1 hmem with hmem | hmem
  · exact hs hmem
  · exact ht hmem

/-- A number is written with digits. -/
lemma notMem_toString_nat (n : Nat) : ')' ∉ (toString n).toList := by
  have hdigit : ∀ d < 10, ')' ≠ d.digitChar := by decide
  rw [Nat.toString_eq_ofList_toDigits, String.toList_ofList]
  intro hmem
  obtain ⟨d, hd, hchar⟩ := exists_digit_of_mem_toDigits (by decide) hmem
  exact hdigit d hd hchar

/-- An integer is written with digits and a sign. -/
lemma notMem_toString_int (z : Int) : ')' ∉ (toString z).toList := by
  rcases z with n | n
  · exact notMem_toString_nat n
  · change ')' ∉ ("-" ++ toString (n + 1)).toList
    exact notMem_append (by decide) (notMem_toString_nat (n + 1))

/-! ## Quoted texts -/

/-- A character that stands for itself precedes a quote, unless it is a quote or a backslash. -/
lemma precedes_toString {c : Char} (hquote : c ≠ '"') (hslash : c ≠ '\\') :
    Precedes c.toString.toList := by
  refine precedes_of_plain fun d hd => ?_
  rw [Char.toString, String.toList_singleton, List.mem_singleton] at hd
  rw [hd]
  exact ⟨hquote, hslash⟩

/-- A character that is spelled by its number precedes a quote. -/
lemma precedes_spelled (c : Char) : Precedes (spelled c).toList := by
  have hdigit : ∀ d < 16, d.digitChar ≠ '"' ∧ d.digitChar ≠ '\\' := by decide
  have hdigits : Precedes (String.ofList (Nat.toDigits 16 c.toNat)).toList := by
    rw [String.toList_ofList]
    refine precedes_of_plain fun d hd => ?_
    obtain ⟨n, hn, rfl⟩ := exists_digit_of_mem_toDigits (by decide) hd
    exact hdigit n hn
  have hbrace : Precedes ['\x7b'] := precedes_of_plain (by simp)
  have hopen : Precedes "\\u\x7b".toList := (precedes_of_marked 'u').append hbrace
  have hclose : Precedes ['\x7d'] := precedes_of_plain (by simp)
  rw [spelled, String.toList_append, String.toList_append]
  exact (hopen.append hdigits).append hclose

/-- A character in its escaped form precedes the closing quote. -/
lemma precedes_escaped (c : Char) : Precedes (escaped c).toList := by
  unfold escaped
  split
  · exact precedes_of_marked '"'
  · exact precedes_of_marked '\\'
  · exact precedes_of_marked 'n'
  · exact precedes_of_marked 'r'
  · exact precedes_of_marked 't'
  · exact precedes_of_marked '0'
  · next hquote hslash _ _ _ _ =>
    split_ifs
    · exact precedes_toString hquote hslash
    · exact precedes_spelled c
    · exact precedes_toString hquote hslash

/-- A text in quotes ends with its closing quote. -/
theorem settles_quoted (v w : String) :
    Settles (quoted v = quoted w) (quoted v) (quoted w) := by
  have hbody : ∀ v : String, Precedes (String.join (v.toList.map escaped)).toList := by
    intro v
    rw [String.toList_join, List.flatMap_map]
    induction v.toList with
    | nil => exact fun _ => rfl
    | cons c cs ih =>
      rw [List.flatMap_cons]
      exact (precedes_escaped c).append ih
  have hsplit : ∀ (v : String) (r : List Char), splitAtQuote ((quoted v).toList ++ r).tail =
      ((String.join (v.toList.map escaped)).toList, r) := by
    intro v r
    rw [quoted, String.toList_append, String.toList_append, List.append_assoc, List.append_assoc]
    refine (hbody v ('"' :: r)).trans ?_
    rw [splitAtQuote, List.append_nil]
  intro r r' heq
  have hpair := congrArg (splitAtQuote ∘ List.tail) heq
  simp only [Function.comp_apply, hsplit, Prod.mk.injEq, String.toList_inj] at hpair
  exact ⟨by rw [quoted, quoted, hpair.1], hpair.2⟩

end Text

end Pseudocode
