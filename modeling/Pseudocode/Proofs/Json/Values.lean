import Mathlib.Tactic.Lemma
import Pseudocode.Json.Columns
import Pseudocode.Json.Reader
import Pseudocode.Json.Writer
import Pseudocode.Proofs.Json.Spacing

/-!
# JSON values read back

A value is read from every text that it can be written as, at any depth of nesting
(`parse?_of_isText`); in particular, if its numerals have only digits behind their points, from the
text that is written for it (`parse?_write`).

Both halves of the proof are inductions over the parts of a value.  In its tokens no two words are
neighbours (`isApart`), so splitting the text gives them back.  And they take the reader from
wanting a value to having it, whatever is open around it (`Reader.reads`).
-/

namespace Pseudocode.Json

/-! ## Parts of a value -/

/-- The values that a value is directly made of. -/
def parts : Json → List Json
  | .array items => items
  | .object fields => fields.map Prod.snd
  | _ => []

/-- The value of a field is a part of the object. -/
lemma snd_mem_parts {f : Option String × Json} {fields : List (Option String × Json)}
    (hf : f ∈ fields) : f.2 ∈ (Json.object fields).parts := List.mem_map_of_mem hf

/-- A part is smaller than the value. -/
lemma sizeOf_lt_of_mem_parts {j p : Json} (hp : p ∈ j.parts) : sizeOf p < sizeOf j := by
  cases j with
  | array items => exact sizeOf_lt_array hp
  | object fields =>
    obtain ⟨f, hf, rfl⟩ := List.mem_map.1 hp
    exact sizeOf_lt_object hf
  | _ => cases hp

/-- What holds of a value whenever it holds of its parts holds of every value. -/
theorem partsInduction {motive : Json → Prop} (step : ∀ j, (∀ p ∈ j.parts, motive p) → motive j)
    (j : Json) : motive j := by
  refine step j fun p hp => ?_
  have hlt := sizeOf_lt_of_mem_parts hp
  exact partsInduction step p
termination_by sizeOf j

/-- A value that can be written: what stands behind the points of its numerals are digits. -/
inductive WellFormed : Json → Prop
  | null : WellFormed .null
  | bool (b : Bool) : WellFormed (.bool b)
  | number {n : Numeral} (hn : n.HasDigits) : WellFormed (.number n)
  | string (s : Option String) : WellFormed (.string s)
  | array {items : List Json} (hitems : ∀ j ∈ items, WellFormed j) : WellFormed (.array items)
  | object {fields : List (Option String × Json)} (hfields : ∀ f ∈ fields, WellFormed f.2) :
      WellFormed (.object fields)

/-- A part of a value that can be written can be written. -/
lemma WellFormed.of_mem_parts {j p : Json} (hj : j.WellFormed) (hp : p ∈ j.parts) :
    p.WellFormed := by
  cases hj with
  | array hitems => exact hitems p hp
  | object hfields =>
    obtain ⟨f, hf, rfl⟩ := List.mem_map.1 hp
    exact hfields f hf
  | _ => cases hp

/-! ## The tokens of a value -/

namespace Token

/-- The tokens may follow a value: no two words are neighbours, and the first is no word. -/
structure Closing (ts : List Token) : Prop where
  apart : ts.IsChain Apart
  head : ∀ t ∈ ts.head?, t.isWord = false

/-- Nothing may follow a value. -/
lemma closing_nil : Closing [] := ⟨.nil, fun t ht => absurd ht (Option.not_mem_none t)⟩

/-- A token that is no word may stand before every sequence of tokens. -/
lemma closing_cons {t : Token} (hword : t.isWord = false) {ts : List Token}
    (hts : ts.IsChain Apart) : Closing (t :: ts) := by
  refine ⟨List.isChain_cons.2 ⟨fun u _ h => ?_, hts⟩, ?_⟩
  · rw [hword] at h
    cases h
  · rintro u hu
    cases hu
    exact hword

/-- Any token may stand before what may follow a value. -/
lemma Closing.isChain_cons {ts : List Token} (hts : Closing ts) (t : Token) :
    (t :: ts).IsChain Apart :=
  List.isChain_cons.2 ⟨fun u hu _ => hts.head u hu, hts.apart⟩

end Token

open Token (Apart Closing closing_cons)

/-- In the tokens of the value no two words are neighbours, before everything that may follow it. -/
def IsApart (j : Json) : Prop := ∀ rest, Closing rest → (j.tokensThen rest).IsChain Apart

/-- In the items of an array no two words are neighbours if that is so in each of them. -/
lemma isChain_itemTokensThen {items : List Json} (hitems : ∀ j ∈ items, j.IsApart)
    {rest : List Token} (hrest : Closing rest) : (itemTokensThen items rest).IsChain Apart := by
  induction items with
  | nil => exact hrest.apart
  | cons j js ih =>
    obtain ⟨hj, hjs⟩ := List.forall_mem_cons.1 hitems
    cases js with
    | nil => exact hj rest hrest
    | cons k js => exact hj _ (closing_cons rfl (ih hjs))

/-- In the fields of an object no two words are neighbours if that is so in the value of each. -/
lemma isChain_fieldTokensThen {fields : List (Option String × Json)}
    (hfields : ∀ f ∈ fields, f.2.IsApart) {rest : List Token} (hrest : Closing rest) :
    (fieldTokensThen fields rest).IsChain Apart := by
  induction fields with
  | nil => exact hrest.apart
  | cons f fs ih =>
    obtain ⟨name, j⟩ := f
    obtain ⟨hj, hfs⟩ := List.forall_mem_cons.1 hfields
    have hfield : ∀ ts, Closing ts → (.string name :: .colon :: j.tokensThen ts).IsChain Apart :=
      fun ts hts => (closing_cons rfl (closing_cons rfl (hj ts hts)).apart).apart
    cases fs with
    | nil => exact hfield rest hrest
    | cons g fs => exact hfield _ (closing_cons rfl (ih hfs))

/-- **No two words are neighbours in the tokens of a value.** -/
theorem isApart (j : Json) : j.IsApart := by
  induction j using partsInduction with
  | step j ih =>
    intro rest hrest
    cases j with
    | null | bool _ | number _ | string _ => exact hrest.isChain_cons _
    | array items =>
      have hclose := closing_cons (t := .closeArray) rfl hrest.apart
      exact (closing_cons rfl (isChain_itemTokensThen ih hclose)).apart
    | object fields =>
      have hclose := closing_cons (t := .closeObject) rfl hrest.apart
      have hvalues := isChain_fieldTokensThen (fun f hf => ih f.2 (snd_mem_parts hf)) hclose
      exact (closing_cons rfl hvalues).apart

/-- The tokens of the value can be written if those that follow can. -/
def IsWritable (j : Json) : Prop :=
  ∀ rest : List Token, (∀ t ∈ rest, t.WellFormed) → ∀ t ∈ j.tokensThen rest, t.WellFormed

/-- The tokens of the items of an array can be written if those of each item can. -/
lemma wellFormed_itemTokensThen {items : List Json} (hitems : ∀ j ∈ items, j.IsWritable)
    {rest : List Token} (hrest : ∀ t ∈ rest, t.WellFormed) :
    ∀ t ∈ itemTokensThen items rest, t.WellFormed := by
  induction items with
  | nil => exact hrest
  | cons j js ih =>
    obtain ⟨hj, hjs⟩ := List.forall_mem_cons.1 hitems
    cases js with
    | nil => exact hj rest hrest
    | cons k js => exact hj _ (List.forall_mem_cons.2 ⟨trivial, ih hjs⟩)

/-- The tokens of the fields of an object can be written if those of each value can. -/
lemma wellFormed_fieldTokensThen {fields : List (Option String × Json)}
    (hfields : ∀ f ∈ fields, f.2.IsWritable) {rest : List Token}
    (hrest : ∀ t ∈ rest, t.WellFormed) : ∀ t ∈ fieldTokensThen fields rest, t.WellFormed := by
  induction fields with
  | nil => exact hrest
  | cons f fs ih =>
    obtain ⟨name, j⟩ := f
    obtain ⟨hj, hfs⟩ := List.forall_mem_cons.1 hfields
    have hfield : ∀ ts, (∀ t ∈ ts, t.WellFormed) →
        ∀ t ∈ Token.string name :: .colon :: j.tokensThen ts, t.WellFormed := fun ts hts =>
      List.forall_mem_cons.2 ⟨trivial, List.forall_mem_cons.2 ⟨trivial, hj ts hts⟩⟩
    cases fs with
    | nil => exact hfield rest hrest
    | cons g fs => exact hfield _ (List.forall_mem_cons.2 ⟨trivial, ih hfs⟩)

/-- The tokens of a value that can be written can be written. -/
lemma WellFormed.isWritable {j : Json} (hj : j.WellFormed) : j.IsWritable := by
  induction j using partsInduction with
  | step j ih =>
    intro rest hrest
    have hparts : ∀ p ∈ j.parts, p.IsWritable := fun p hp => ih p hp (hj.of_mem_parts hp)
    cases hj with
    | null | bool _ | string _ => exact List.forall_mem_cons.2 ⟨trivial, hrest⟩
    | number hn => exact List.forall_mem_cons.2 ⟨hn, hrest⟩
    | array hitems =>
      have hclose : ∀ t ∈ Token.closeArray :: rest, t.WellFormed :=
        List.forall_mem_cons.2 ⟨trivial, hrest⟩
      exact List.forall_mem_cons.2 ⟨trivial, wellFormed_itemTokensThen hparts hclose⟩
    | object hfields =>
      have hclose : ∀ t ∈ Token.closeObject :: rest, t.WellFormed :=
        List.forall_mem_cons.2 ⟨trivial, hrest⟩
      have hvalues := wellFormed_fieldTokensThen (fun f hf => hparts f.2 (snd_mem_parts hf)) hclose
      exact List.forall_mem_cons.2 ⟨trivial, hvalues⟩

/-! ## Reading the tokens of a value -/

namespace Reader

/-- The tokens of the value take the reader from wanting a value to having it, whatever is open
around it and whatever follows. -/
def Reads (j : Json) : Prop :=
  ∀ stack rest, (j.tokensThen rest).foldlM step ⟨stack, .value⟩ = rest.foldlM step ⟨stack, .after j⟩

/-- A value is also read where an array might end. -/
lemma foldlM_firstItem (j : Json) (stack : List Frame) (rest : List Token) :
    (j.tokensThen rest).foldlM step ⟨stack, .firstItem⟩ =
      (j.tokensThen rest).foldlM step ⟨stack, .value⟩ := by
  cases j <;> rfl

/-- The items of an array are put behind those that the array already has. -/
lemma foldlM_itemTokensThen {items : List Json} (hitems : ∀ j ∈ items, Reads j) (hne : items ≠ [])
    (done : List Json) (stack : List Frame) (rest : List Token) :
    (itemTokensThen items (.closeArray :: rest)).foldlM step ⟨.items done :: stack, .value⟩ =
      rest.foldlM step ⟨stack, .after (.array (done.reverse ++ items))⟩ := by
  induction items generalizing done with
  | nil => exact absurd rfl hne
  | cons j js ih =>
    obtain ⟨hj, hjs⟩ := List.forall_mem_cons.1 hitems
    have hdone : ∀ ks, done.reverse ++ j :: ks = (j :: done).reverse ++ ks := by simp
    cases js with
    | nil =>
      rw [itemTokensThen, hj, hdone, List.append_nil]
      rfl
    | cons k js =>
      rw [itemTokensThen, hj, hdone]
      · exact ih hjs (List.cons_ne_nil k js) (j :: done)
      · exact List.cons_ne_nil k js

/-- The fields of an object are put behind those that the object already has. -/
lemma foldlM_fieldTokensThen {fields : List (Option String × Json)}
    (hfields : ∀ f ∈ fields, Reads f.2) (hne : fields ≠ []) (done : List (Option String × Json))
    (stack : List Frame) (rest : List Token) :
    (fieldTokensThen fields (.closeObject :: rest)).foldlM step ⟨stack, .name done⟩ =
      rest.foldlM step ⟨stack, .after (.object (done.reverse ++ fields))⟩ := by
  induction fields generalizing done with
  | nil => exact absurd rfl hne
  | cons f fs ih =>
    obtain ⟨name, j⟩ := f
    obtain ⟨hj, hfs⟩ := List.forall_mem_cons.1 hfields
    have hdone : ∀ gs, done.reverse ++ (name, j) :: gs = ((name, j) :: done).reverse ++ gs := by simp
    have hfield : ∀ ts, (Token.string name :: .colon :: j.tokensThen ts).foldlM step
        ⟨stack, .name done⟩ = ts.foldlM step ⟨.fields done name :: stack, .after j⟩ :=
      fun ts => hj (.fields done name :: stack) ts
    cases fs with
    | nil =>
      rw [fieldTokensThen, hfield, hdone, List.append_nil]
      rfl
    | cons g fs =>
      rw [fieldTokensThen, hfield, hdone]
      · exact ih hfs (List.cons_ne_nil g fs) ((name, j) :: done)
      · exact List.cons_ne_nil g fs

/-- A name is also read where an object might end. -/
lemma foldlM_firstName (f : Option String × Json) (fields : List (Option String × Json))
    (stack : List Frame) (rest : List Token) :
    (fieldTokensThen (f :: fields) rest).foldlM step ⟨stack, .firstName⟩ =
      (fieldTokensThen (f :: fields) rest).foldlM step ⟨stack, .name []⟩ := by
  cases fields <;> rfl

/-- **The tokens of a value are read as that value.** -/
theorem reads (j : Json) : Reads j := by
  induction j using partsInduction with
  | step j ih =>
    intro stack rest
    cases j with
    | null | bool _ | number _ | string _ => rfl
    | array items =>
      cases items with
      | nil => rfl
      | cons j js =>
        have hne := List.cons_ne_nil j js
        have hfirst : (itemTokensThen (j :: js) (.closeArray :: rest)).foldlM step
            ⟨.items [] :: stack, .firstItem⟩ =
              (itemTokensThen (j :: js) (.closeArray :: rest)).foldlM step
                ⟨.items [] :: stack, .value⟩ := by
          cases js <;> exact foldlM_firstItem j _ _
        exact hfirst.trans (foldlM_itemTokensThen ih hne [] stack rest)
    | object fields =>
      cases fields with
      | nil => rfl
      | cons f fs =>
        have hread := foldlM_fieldTokensThen (fun g hg => ih g.2 (snd_mem_parts hg))
          (List.cons_ne_nil f fs) [] stack rest
        exact (foldlM_firstName f fs stack _).trans hread

end Reader

/-- A sequence of tokens that a value was written as is read as that value. -/
lemma ofTokens?_tokens (j : Json) : ofTokens? j.tokens = some j := by
  have hread := Reader.reads j [] []
  rw [ofTokens?, tokens]
  exact congrArg (Option.bind · Reader.result?) hread

/-! ## Texts -/

/-- The text is one of those that a value can be written as: its tokens, each in any spelling, with
blanks before, between and behind them. -/
def IsText (j : Json) (s : String) : Prop := Token.Spaced j.tokens s.toList

/-- **A value is read from every text that it can be written as.** -/
theorem parse?_of_isText {j : Json} {s : String} (h : j.IsText s) : parse? s = some j := by
  rw [parse?, Token.lex_of_spaced h (j.isApart [] Token.closing_nil)]
  exact ofTokens?_tokens j

/-- A value can be written with the same blanks in front of each token. -/
lemma WellFormed.isText_join {j : Json} (hj : j.WellFormed) (blanks : String)
    (hblanks : ∀ c ∈ blanks.toList, Token.isBlank c) :
    j.IsText (String.join (j.tokens.map fun t => blanks ++ t.text)) :=
  Token.spaced_join (hj.isWritable [] (List.forall_mem_nil _)) hblanks

/-- **A value is read from its text as it was written.** -/
theorem parse?_write {j : Json} (hj : j.WellFormed) : parse? j.write = some j := by
  have htext := hj.isText_join "" (List.forall_mem_nil _)
  have hwrite : String.join (j.tokens.map fun t => "" ++ t.text) = j.write := by
    simp only [String.empty_append, write]
  exact parse?_of_isText (hwrite ▸ htext)

end Pseudocode.Json
