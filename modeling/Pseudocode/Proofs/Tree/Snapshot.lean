import Pseudocode.Proofs.Json.Records
import Pseudocode.Proofs.Json.Values
import Pseudocode.Proofs.Tree.Subtree

/-!
# Snapshots of trees read back

What is written for a tree, a payload, a case or a function recovers it exactly if all floating point
numbers in it are finite, and is refused if not.

The step from a payload to its sub-trees is `Payload.recovers_encode`: the snapshot of a payload
recovers it if those of its sub-trees recover these.  The run is `Tree.restored`, by induction over
sub-trees.  That the snapshot is a value that can be written as text at all is shown along the same
lines (`Tree.wellFormed_encode`).
-/

namespace Pseudocode

/-! ## Floating point numbers in a tree -/

/-- A floating point number stands in a payload: it is the payload, or stands in that of one of its
sub-trees. -/
inductive Payload.Holds : Payload → Binary64 → Prop
  | own (x : Binary64) : Holds (.fnum x) x
  | inside {p : Payload} {t : Tree} {x : Binary64} (ht : t ∈ p.subtrees) (hx : Holds t.payload x) :
      Holds p x

/-- All floating point numbers in a payload are finite. -/
def Payload.AllFinite (p : Payload) : Prop := ∀ x, p.Holds x → x.isFinite

/-- All floating point numbers in a tree are finite. -/
def Tree.AllFinite (t : Tree) : Prop := t.payload.AllFinite

/-- All floating point numbers in a case are finite. -/
def Case.AllFinite (c : Case) : Prop := c.body.AllFinite

/-- All floating point numbers in a function are finite. -/
def Function.AllFinite (f : Function Tree) : Prop := f.body.AllFinite

namespace Payload

/-- All floating point numbers in a payload are finite if the payload is finite in case it is one,
and those in its sub-trees are. -/
lemma allFinite_iff {p : Payload} :
    p.AllFinite ↔ (∀ x, p = .fnum x → x.isFinite) ∧ ∀ t ∈ p.subtrees, t.AllFinite := by
  constructor
  · intro h
    refine ⟨?_, fun t ht x hx => h x (.inside ht hx)⟩
    rintro x rfl
    exact h x (.own x)
  · rintro ⟨hown, hinside⟩ x hx
    cases hx with
    | own => exact hown x rfl
    | inside ht hx => exact hinside _ ht x hx

/-- A floating point payload is finite if its number is. -/
lemma allFinite_fnum (x : Binary64) : (Payload.fnum x).AllFinite ↔ x.isFinite := by
  rw [allFinite_iff]
  constructor
  · exact fun h => h.1 x rfl
  · intro hx
    refine ⟨?_, List.forall_mem_nil _⟩
    intro y h
    cases h
    exact hx

/-- Any other payload is finite if its sub-trees are. -/
lemma allFinite_iff_subtrees {p : Payload} (hp : ∀ x, p ≠ .fnum x) :
    p.AllFinite ↔ ∀ t ∈ p.subtrees, t.AllFinite := by
  rw [allFinite_iff]
  exact and_iff_right fun x h => absurd h (hp x)

end Payload

/-! ## Writing -/

namespace Tree

/-- The snapshots of a list of trees. -/
lemma encodes_eq_map (ts : List Tree) : encodes ts = ts.map encode := by
  induction ts with
  | nil => simp [encodes]
  | cons t ts ih => rw [encodes, ih, List.map_cons]

end Tree

/-- The snapshots of a list of cases. -/
lemma Case.encodes_eq_map (cs : List Case) : Case.encodes cs = cs.map Case.encode := by
  induction cs with
  | nil => simp [Case.encodes]
  | cons c cs ih =>
    obtain ⟨values, body⟩ := c
    rw [Case.encodes, ih, List.map_cons]
    rfl

namespace Tree

/-- The snapshot of a tree that may be absent can be written if that of the tree can. -/
@[simp]
lemma wellFormed_encodeOption {o : Option Tree} :
    (encodeOption o).WellFormed ↔ ∀ t ∈ o.toList, t.encode.WellFormed := by
  cases o <;> simp [encodeOption]

/-- The snapshot of a tree can be written if that of its payload can. -/
@[simp]
lemma wellFormed_encode_node {ea : Address} {op : Tag} {payload : Payload} :
    (Tree.node ea op payload).encode.WellFormed ↔ payload.encode.WellFormed := by
  simp [encode, Tag.encode]

end Tree

/-- The snapshot of a case can be written if that of its body can. -/
@[simp]
lemma Case.wellFormed_encode {c : Case} : c.encode.WellFormed ↔ c.body.encode.WellFormed := by
  simp [Case.encode]

/-- The snapshot of a payload can be written if those of its sub-trees can. -/
lemma Payload.wellFormed_encode_of_subtrees {p : Payload}
    (h : ∀ t ∈ p.subtrees, t.encode.WellFormed) : p.encode.WellFormed := by
  cases p <;>
    simp_all [Payload.encode, Payload.subtrees, Tree.encodes_eq_map, Case.encodes_eq_map]

/-- **The snapshot of a tree can be written.** -/
theorem Tree.wellFormed_encode (t : Tree) : t.encode.WellFormed := by
  induction t using Tree.subtreeInduction with
  | step t ih =>
    obtain ⟨ea, op, payload⟩ := t
    rw [Tree.wellFormed_encode_node]
    exact Payload.wellFormed_encode_of_subtrees ih

/-- The snapshot of a payload can be written. -/
lemma Payload.wellFormed_encode (p : Payload) : p.encode.WellFormed :=
  Payload.wellFormed_encode_of_subtrees fun t _ => t.wellFormed_encode

/-- The snapshot of a function can be written. -/
lemma Function.wellFormed_encode (f : Function Tree) : f.encode.WellFormed := by
  simp [Function.encode, Tree.wellFormed_encode]

/-! ## Reading what was written -/

/-- A tag is read as it was written. -/
@[simp]
lemma Tag.decode?_encode (t : Tag) : Tag.decode? t.encode = some t := by
  simp [Tag.decode?, Tag.encode]

/-- The snapshot of the tree recovers it, exactly if it is finite. -/
def Tree.Restored (o : Origin) (t : Tree) : Prop :=
  Recovers (Tree.decode? o t.encode) t t.AllFinite

variable {o : Origin}

namespace Tree

/-- A tree that may be absent is recovered if it is restored whenever it is there. -/
lemma recovers_encodeOption {t : Option Tree} (ht : ∀ u ∈ t.toList, u.Restored o) :
    Recovers (decodeOption? o (encodeOption t)) t (∀ u ∈ t.toList, u.AllFinite) := by
  cases t with
  | none =>
    rw [encodeOption, decodeOption?]
    exact (recovers_some none).congr (by simp)
  | some u =>
    have hread : decodeOption? o (encodeOption (some u)) = (decode? o u.encode).map some := by
      obtain ⟨ea, op, payload⟩ := u
      rw [encodeOption, decodeOption?]
      rfl
    rw [hread]
    exact ((ht u (by simp)).map some).congr (by simp)

/-- The same in a column that may be left out. -/
lemma recovers_column {t : Option Tree} (ht : ∀ u ∈ t.toList, u.Restored o) {j : Json}
    (hsize : sizeOf (encodeOption t) < sizeOf j) :
    Recovers (decodePart? o (some (⟨encodeOption t, hsize⟩ : j.Part))) t
      (∀ u ∈ t.toList, u.AllFinite) := by
  rw [decodePart?]
  exact recovers_encodeOption ht

/-- The trees in an array are read one by one. -/
lemma decodeAll?_array (items : List Json) :
    decodeAll? o (.array items) = items.mapM (decode? o) := by
  obtain ⟨ps, hps, hread⟩ := Json.exists_parts?_array items
  rw [decodeAll?, hps]
  exact hread (decode? o)

/-- A list of trees is recovered if each of them is restored. -/
lemma recovers_encodes {ts : List Tree} (hts : ∀ t ∈ ts, t.Restored o) :
    Recovers (decodeAll? o (.array (encodes ts))) ts (∀ t ∈ ts, t.AllFinite) := by
  rw [decodeAll?_array, encodes_eq_map]
  exact recovers_mapM hts

end Tree

namespace Case

/-- A case is recovered if its body is restored. -/
lemma recovers_encode {c : Case} (hc : c.body.Restored o) :
    Recovers (Case.decode? o c.encode) c c.AllFinite := by
  obtain ⟨values, body⟩ := c
  obtain ⟨hsize, hcols⟩ := Json.columns?_record
    [("values", .words64 values), ("body", body.encode)] true Case.columns rfl (by decide)
  rw [Case.decode?, Case.encode]
  simp only [Case.values, Case.body, hcols]
  have hvalues := recovers_of_eq (Json.words64?_words64 values)
  exact (hvalues.bind (hc.bind_pure)).congr (iff_of_eq (true_and _))

/-- The cases in an array are read one by one. -/
lemma decodeAll?_array (items : List Json) :
    Case.decodeAll? o (.array items) = items.mapM (Case.decode? o) := by
  obtain ⟨ps, hps, hread⟩ := Json.exists_parts?_array items
  rw [Case.decodeAll?, hps]
  exact hread (Case.decode? o)

/-- A list of cases is recovered if the body of each is restored. -/
lemma recovers_encodes {cs : List Case} (hcs : ∀ t ∈ cs.map Case.body, t.Restored o) :
    Recovers (Case.decodeAll? o (.array (Case.encodes cs))) cs
      (∀ t ∈ cs.map Case.body, t.AllFinite) := by
  rw [decodeAll?_array, Case.encodes_eq_map]
  have hall := recovers_mapM fun c hc => recovers_encode (hcs _ (List.mem_map_of_mem hc))
  exact hall.congr (by simp [Case.AllFinite])

end Case

namespace Payload

/-- A variant with content is read by its name. -/
lemma decode?_variant (name : String) (content : Json) :
    Payload.decode? o (.variant name content) = decodeContent? o name content := by
  rw [Payload.decode?]
  rfl

/-- A payload without numbers and sub-trees is recovered if it is read. -/
lemma recovers_leaf {p : Payload} {r : Option Payload} (hr : r = some p) (hp : ∀ x, p ≠ .fnum x)
    (hleaf : p.subtrees = []) : Recovers r p p.AllFinite := by
  have hfinite : p.AllFinite := by
    rw [allFinite_iff_subtrees hp, hleaf]
    exact List.forall_mem_nil _
  exact (recovers_of_eq hr).congr (iff_of_true trivial hfinite)

/-- **Step.** The snapshot of a payload recovers it if its sub-trees are restored. -/
lemma recovers_encode {p : Payload} (hp : ∀ t ∈ p.subtrees, t.Restored o) :
    Recovers (Payload.decode? o p.encode) p p.AllFinite := by
  cases p with
  | none =>
    refine recovers_leaf ?_ (by simp) rfl
    rw [encode, Payload.decode?]
    rfl
  | num value | str value | obj value | var value | helper value | goto value | asm value =>
    refine recovers_leaf ?_ (by simp) rfl
    simp [encode, decode?_variant, decodeContent?]
  | fnum value =>
    rw [encode, decode?_variant, decodeContent?, allFinite_fnum]
    exact (Json.recovers_binary64 value).map Payload.fnum
  | operands x y z =>
    have hx := hp x (by simp [subtrees])
    have hy : ∀ u ∈ y.toList, u.Restored o := fun u hu => hp u (by simp_all [subtrees])
    have hz : ∀ u ∈ z.toList, u.Restored o := fun u hu => hp u (by simp_all [subtrees])
    obtain ⟨_, hcols⟩ := Json.columns?_record
      [("x", x.encode), ("y", Tree.encodeOption y), ("z", Tree.encodeOption z)]
      o.positional [.required "x", .maybe "y", .maybe "z"] rfl (by decide)
    rw [encode, decode?_variant, decodeContent?, hcols, allFinite_iff_subtrees (by simp)]
    refine (hx.bind ((Tree.recovers_column hy _).bind (Tree.recovers_column hz _).bind_pure)).congr ?_
    simp [subtrees, or_imp, forall_and]
  | call callee args =>
    have hcallee := hp callee (by simp [subtrees])
    have hargs := Tree.recovers_encodes fun u hu => hp u (List.mem_cons_of_mem callee hu)
    obtain ⟨_, hcols⟩ := Json.columns?_record
      [("callee", callee.encode), ("args", .array (Tree.encodes args))]
      o.positional [.required "callee", .required "args"] rfl (by decide)
    rw [encode, decode?_variant, decodeContent?, hcols, allFinite_iff_subtrees (by simp)]
    refine (hcallee.bind hargs.bind_pure).congr ?_
    simp [subtrees]
  | member x m =>
    have hx := hp x (by simp [subtrees])
    have hm := recovers_of_eq (Json.word32?_nat m)
    obtain ⟨_, hcols⟩ := Json.columns?_record [("x", x.encode), ("m", .nat m.toNat)]
      o.positional [.required "x", .required "m"] rfl (by decide)
    rw [encode, decode?_variant, decodeContent?, hcols, allFinite_iff_subtrees (by simp)]
    refine (hx.bind (Q := True) ?_).congr ?_
    · exact hm.bind_pure
    · simp [subtrees]
  | insn stmt =>
    have hstmt := hp stmt (by simp [subtrees])
    rw [encode, decode?_variant, decodeContent?, allFinite_iff_subtrees (by simp)]
    exact (hstmt.map Payload.insn).congr (by simp [subtrees])
  | block stmts =>
    rw [encode, decode?_variant, decodeContent?, allFinite_iff_subtrees (by simp)]
    exact (Tree.recovers_encodes hp).map Payload.block
  | expr e =>
    have he := hp e (by simp [subtrees])
    rw [encode, decode?_variant, decodeContent?, allFinite_iff_subtrees (by simp)]
    exact (he.map Payload.expr).congr (by simp [subtrees])
  | branch cond thenBranch otherwise =>
    have hcond := hp cond (by simp [subtrees])
    have hthen := hp thenBranch (by simp [subtrees])
    have helse : ∀ u ∈ otherwise.toList, u.Restored o := fun u hu => hp u (by simp_all [subtrees])
    obtain ⟨_, hcols⟩ := Json.columns?_record
      [("cond", cond.encode), ("then", thenBranch.encode), ("otherwise", Tree.encodeOption otherwise)]
      o.positional [.required "cond", .required "then", .maybe "otherwise"] rfl (by decide)
    rw [encode, decode?_variant, decodeContent?, hcols, allFinite_iff_subtrees (by simp)]
    refine (hcond.bind (hthen.bind (Tree.recovers_column helse _).bind_pure)).congr ?_
    simp [subtrees]
  | counting init cond step body =>
    have hinit := hp init (by simp [subtrees])
    have hcond := hp cond (by simp [subtrees])
    have hstep := hp step (by simp [subtrees])
    have hbody := hp body (by simp [subtrees])
    obtain ⟨_, hcols⟩ := Json.columns?_record
      [("init", init.encode), ("cond", cond.encode), ("step", step.encode), ("body", body.encode)]
      o.positional [.required "init", .required "cond", .required "step", .required "body"]
      rfl (by decide)
    rw [encode, decode?_variant, decodeContent?, hcols, allFinite_iff_subtrees (by simp)]
    refine (hinit.bind (hcond.bind (hstep.bind hbody.bind_pure))).congr ?_
    simp [subtrees]
  | loop cond body =>
    have hcond := hp cond (by simp [subtrees])
    have hbody := hp body (by simp [subtrees])
    obtain ⟨_, hcols⟩ := Json.columns?_record [("cond", cond.encode), ("body", body.encode)]
      o.positional [.required "cond", .required "body"] rfl (by decide)
    rw [encode, decode?_variant, decodeContent?, hcols, allFinite_iff_subtrees (by simp)]
    refine (hcond.bind hbody.bind_pure).congr ?_
    simp [subtrees]
  | switch e cases =>
    have he := hp e (by simp [subtrees])
    have hcases := Case.recovers_encodes fun u hu => hp u (List.mem_cons_of_mem e hu)
    obtain ⟨_, hcols⟩ := Json.columns?_record
      [("expr", e.encode), ("cases", .array (Case.encodes cases))]
      o.positional [.required "expr", .required "cases"] rfl (by decide)
    rw [encode, decode?_variant, decodeContent?, hcols, allFinite_iff_subtrees (by simp)]
    refine (he.bind hcases.bind_pure).congr ?_
    simp [subtrees]
  | returned value =>
    rw [encode, decode?_variant, decodeContent?, allFinite_iff_subtrees (by simp)]
    exact (Tree.recovers_encodeOption hp).map Payload.returned

end Payload

namespace Tree

/-- A tree is restored if its payload is recovered. -/
lemma restored_of_payload {ea : Address} {op : Tag} {payload : Payload}
    (hpayload : Recovers (Payload.decode? o payload.encode) payload payload.AllFinite) :
    (Tree.node ea op payload).Restored o := by
  have hea := recovers_of_eq (Json.word64?_word64 ea)
  have hop := recovers_of_eq (Tag.decode?_encode op)
  obtain ⟨_, hcols⟩ := Json.columns?_record
    [("ea", .word64 ea), ("op", op.encode), ("payload", payload.encode)] true Tree.columns
    rfl (by decide)
  rw [Restored, encode, decode?, hcols]
  refine (hea.bind (Q := True ∧ payload.AllFinite) (hop.bind hpayload.bind_pure)).congr ?_
  simp [AllFinite, Tree.payload]

/-- **Run.** Every tree is restored. -/
theorem restored (o : Origin) (t : Tree) : t.Restored o := by
  induction t using subtreeInduction with
  | step t ih =>
    obtain ⟨ea, op, payload⟩ := t
    exact restored_of_payload (Payload.recovers_encode ih)

end Tree

/-- A function is recovered exactly if it is finite. -/
lemma Function.recovers_encode (f : Function Tree) :
    Recovers (Function.decode? o f.encode) f f.AllFinite := by
  obtain ⟨ea, name, body⟩ := f
  have hea := recovers_of_eq (Json.word64?_word64 ea)
  have hname := recovers_of_eq (Json.text?_text name)
  obtain ⟨_, hcols⟩ := Json.columns?_record
    [("ea", .word64 ea), ("name", .text name), ("body", body.encode)] true Function.columns
    rfl (by decide)
  rw [Function.decode?, Function.encode, hcols]
  refine (hea.bind (Q := True ∧ body.AllFinite) (hname.bind (body.restored o).bind_pure)).congr ?_
  simp [Function.AllFinite]

end Pseudocode
