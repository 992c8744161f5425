import Mathlib.Data.List.Chain
import Pseudocode.Proofs.Json.Tokens

/-!
# Texts of tokens

The same tokens can be written as many texts: blanks may stand before, between and behind them, a
string literal may use escapes where none is needed, and a numeral may write its power of ten in
several ways.  `Token.Spaced ts cs` says that the characters `cs` are one of these texts.  Whichever
it is, it is split into the tokens `ts`, as long as no two words stand next to each other
(`Token.lex_of_spaced`).

The step is `Token.next?_append`: a token is cut off a text in the same way whatever follows it,
except that a word must not run into more of a word.
-/

namespace Pseudocode.Json

/-- A literal is scanned in the same way whatever follows it. -/
lemma Piece.scan_append {cs rest : List Char} {ps : List Piece} (h : scan cs = some (ps, rest))
    (more : List Char) : scan (cs ++ more) = some (ps, rest ++ more) := by
  fun_induction scan cs generalizing ps rest with
  | case1 => cases h
  | case2 rest' =>
    cases h
    rfl
  | case3 a b c d rest' n ps' rest'' hs hn ih =>
    cases h
    simp only [List.cons_append, scan, hn, ih hs]
  | case4 => cases h
  | case5 e rest' hne c ps' rest'' hs hc ih =>
    cases h
    have he : e ≠ 'u' := by
      rintro rfl
      cases hc
    have hstep := scan.eq_4 e (rest' ++ more) fun _ _ _ _ _ hu _ => he hu
    rw [List.cons_append, List.cons_append, hstep, hc, ih hs]
  | case6 => cases h
  | case7 => cases h
  | case8 c rest' hquote hunit hshort hc ps' rest'' hs ih =>
    cases h
    -- A backslash is not scanned by itself: it needs a character behind it.
    have hslash : c ≠ '\\' := by
      rintro rfl
      cases rest' with
      | nil => cases hs
      | cons e rest' => exact hshort e rest' rfl rfl
    rw [List.cons_append, scan.eq_5 c _ hquote (fun _ _ _ _ _ h _ => hslash h)
      fun _ _ h _ => hslash h, if_neg hc, ih hs]
  | case9 => cases h

namespace Token

/-! ## One token -/

/-- A run of word characters is read as a word. -/
lemma isWord_of_ofWord? {w : List Char} {t : Token} (h : ofWord? w = some t) : t.isWord := by
  unfold ofWord? at h
  split_ifs at h
  · cases h
    rfl
  · cases h
    rfl
  · cases h
    rfl
  · obtain ⟨n, _, rfl⟩ := Option.map_eq_some_iff.1 h
    rfl

/-- A token that makes up all characters is cut off also when more follow, as long as a word does
not run into more of a word. -/
lemma next?_append {c : Char} {cs rest : List Char} {t : Token} (h : next? c cs = some (t, []))
    (hrest : t.isWord → EndsRun isWordChar rest) : next? c (cs ++ rest) = some (t, rest) := by
  unfold next? at h ⊢
  by_cases hquote : c = '"'
  · rw [if_pos hquote] at h ⊢
    split at h
    · rename_i ps rest' hscan
      cases h
      rw [Piece.scan_append hscan rest]
      rfl
    · cases h
  · rw [if_neg hquote] at h ⊢
    cases hpunct : punctuation? c with
    | some u =>
      rw [hpunct] at h
      cases h
      rfl
    | none =>
      rw [hpunct] at h
      simp only at h ⊢
      split_ifs at h ⊢ with hword
      obtain ⟨u, hu, heq⟩ := Option.map_eq_some_iff.1 h
      obtain ⟨rfl, hdrop⟩ := Prod.mk.inj heq
      have hrun : ∀ d ∈ cs, isWordChar d := List.dropWhile_eq_nil_iff.1 hdrop
      have hends := hrest (isWord_of_ofWord? hu)
      rw [List.takeWhile_eq_self_iff.2 hrun] at hu
      rw [takeWhile_run hrun hends, dropWhile_run hrun hends, hu]
      rfl

/-- What is written for a token that is no word does not begin like a word. -/
lemma Spells.endsRun {cs : List Char} {t : Token} (h : Spells cs t) (hword : t.isWord = false)
    (rest : List Char) : EndsRun isWordChar (cs ++ rest) := by
  obtain ⟨c, cs, rfl, _, hnext⟩ := h
  refine endsRun_cons.2 (Bool.eq_false_iff.2 fun hc => ?_)
  obtain ⟨hquote, hpunct, _⟩ := of_isWordChar hc
  simp only [next?, hquote, hpunct, hc, if_true, if_false] at hnext
  obtain ⟨u, hu, heq⟩ := Option.map_eq_some_iff.1 hnext
  obtain ⟨rfl, _⟩ := Prod.mk.inj heq
  rw [isWord_of_ofWord? hu] at hword
  cases hword

/-- A blank does not go on a word. -/
lemma not_isWordChar_of_isBlank {c : Char} (hc : isBlank c) : isWordChar c = false := by
  refine Bool.eq_false_iff.2 fun hword => ?_
  rw [(of_isWordChar hword).2.2] at hc
  cases hc

/-! ## Sequences of tokens -/

/-- Two tokens that may stand next to each other. -/
def Apart (t u : Token) : Prop := t.isWord → u.isWord = false

/-- The characters write the tokens, with blanks before, between and behind them. -/
inductive Spaced : List Token → List Char → Prop
  | nil {blanks : List Char} (hblanks : ∀ c ∈ blanks, isBlank c) : Spaced [] blanks
  | cons {blanks cs rest : List Char} {t : Token} {ts : List Token}
      (hblanks : ∀ c ∈ blanks, isBlank c) (ht : Spells cs t) (hts : Spaced ts rest) :
      Spaced (t :: ts) (blanks ++ (cs ++ rest))

/-- A word does not run into the text of tokens that do not begin with a word. -/
lemma Spaced.endsRun {ts : List Token} {cs : List Char} (h : Spaced ts cs)
    (hhead : ∀ t ∈ ts.head?, t.isWord = false) : EndsRun isWordChar cs := by
  cases h with
  | nil hb =>
    cases cs with
    | nil => exact endsRun_nil isWordChar
    | cons b blanks => exact endsRun_cons.2 (not_isWordChar_of_isBlank (hb b List.mem_cons_self))
  | @cons blanks cs rest t ts hb ht hts =>
    cases blanks with
    | nil => exact ht.endsRun (hhead t rfl) rest
    | cons b blanks => exact endsRun_cons.2 (not_isWordChar_of_isBlank (hb b List.mem_cons_self))

/-- Blanks are skipped. -/
lemma lexAfter_blanks (done : List Token) {blanks : List Char} (hblanks : ∀ c ∈ blanks, isBlank c)
    (cs : List Char) : lexAfter done (blanks ++ cs) = lexAfter done cs := by
  induction blanks with
  | nil => rfl
  | cons b blanks ih =>
    obtain ⟨hb, hblanks⟩ := List.forall_mem_cons.1 hblanks
    rw [List.cons_append, lexAfter, if_pos hb, ih hblanks]

/-- **Step.** One token is split off and put behind those already found. -/
lemma lexAfter_spells (done : List Token) {cs rest : List Char} {t : Token} (ht : Spells cs t)
    (hrest : t.isWord → EndsRun isWordChar rest) :
    lexAfter done (cs ++ rest) = lexAfter (t :: done) rest := by
  obtain ⟨c, cs, rfl, hblank, hnext⟩ := ht
  have hcut := next?_append hnext hrest
  rw [List.cons_append, lexAfter, if_neg (Bool.eq_false_iff.1 hblank)]
  split
  · rename_i t' rest' heq
    rw [hcut] at heq
    cases heq
    rfl
  · rename_i heq
    rw [hcut] at heq
    cases heq

/-- **Run.** A text of tokens of which no two words are neighbours is split into these tokens. -/
lemma lexAfter_of_spaced {ts : List Token} {cs : List Char} (done : List Token)
    (hcs : Spaced ts cs) (hts : ts.IsChain Apart) :
    lexAfter done cs = some (done.reverse ++ ts) := by
  induction hcs generalizing done with
  | @nil blanks hblanks =>
    have hskip := lexAfter_blanks done hblanks []
    rw [List.append_nil] at hskip
    rw [hskip, lexAfter, List.append_nil]
  | @cons blanks cs rest t ts hblanks ht hrest ih =>
    obtain ⟨hnext, hts⟩ := List.isChain_cons.1 hts
    have hends : t.isWord → EndsRun isWordChar rest := fun hword =>
      hrest.endsRun fun u hu => hnext u hu hword
    rw [lexAfter_blanks done hblanks, lexAfter_spells done ht hends, ih (t :: done) hts]
    simp

/-- **The tokens are read from every text of them.** -/
theorem lex_of_spaced {ts : List Token} {s : String} (hs : Spaced ts s.toList)
    (hts : ts.IsChain Apart) : lex s = some ts :=
  lexAfter_of_spaced [] hs hts

/-! ## Writing with blanks -/

/-- Tokens may be written with the same blanks in front of each. -/
lemma spaced_join {ts : List Token} (hts : ∀ t ∈ ts, t.WellFormed) {blanks : String}
    (hblanks : ∀ c ∈ blanks.toList, isBlank c) :
    Spaced ts (String.join (ts.map fun t => blanks ++ t.text)).toList := by
  rw [String.toList_join, List.flatMap_map]
  induction ts with
  | nil => exact .nil (List.forall_mem_nil _)
  | cons t ts ih =>
    obtain ⟨ht, hts⟩ := List.forall_mem_cons.1 hts
    rw [List.flatMap_cons, String.toList_append, List.append_assoc]
    exact .cons hblanks (spells_text ht) (ih hts)

end Token

end Pseudocode.Json
