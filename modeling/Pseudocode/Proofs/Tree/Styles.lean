import Pseudocode.Proofs.Tree.Format
import Pseudocode.Proofs.Tree.Restore

/-!
# Snapshots in every style

The format of snapshots leaves much open: the order of fields, unknown fields, absent values that
may be left out, records as arrays, the bare name of an empty payload, and blanks.  `Restyled` says
that one snapshot arises from another by using these freedoms in any of its records, at any depth;
`Spoiled` says that one record has a defect: a required column is removed, a name is repeated, or a
value is missing from an array or is added to it.  Both apply to every record of a snapshot, because
a snapshot is laid out by the format all through (`laid_tree`).

Every restyled text is restored to the value that the snapshot was written for, and every spoiled
one is refused (`snapshots_read_in_every_style`).  Both are inductions along the relation: what is
read from a value is determined by what is read from its parts.
-/

namespace Pseudocode

namespace Snapshot

open Json (Column Writes Spoils)

/-! ## Styles -/

/-- A row of a record whose value is changed. -/
structure Row where
  column : Column
  format : Format
  before : Json
  after : Json

/-- The rows are those of a record with the given columns. -/
def Lists (rows : List Row) (s : Schema) : Prop :=
  rows.map (fun r => (r.column, r.format)) = s.columns

/-- The record with the values before the change, all columns in their order. -/
def Row.original (rows : List Row) : Json := .record (rows.map fun r => (r.column.name, r.before))

/-- The rows after the change. -/
def Row.changed (rows : List Row) : List (Column × Json) := rows.map fun r => (r.column, r.after)

/-- The value is laid out by the format: the records in it have all their columns in order. -/
inductive Laid : Format → Json → Prop
  | word64 (w : UInt64) : Laid .word64 (.word64 w)
  | word32 (w : UInt32) : Laid .word32 (.nat w.toNat)
  | words64 (ws : List UInt64) : Laid .words64 (.words64 ws)
  | float (x : Binary64) : Laid .float (.binary64 x)
  | text (s : String) : Laid .text (.text s)
  | label (n : Int32) : Laid .label (.int n.toInt)
  | tag (t : Tag) : Laid .tag t.encode
  | record {s : Schema} {rows : List Row} (hrows : Lists rows s)
      (hvalues : ∀ r ∈ rows, Laid r.format r.before) : Laid (.record s) (Row.original rows)
  | unit : Laid .payload (.text "None")
  | content {name : String} {F : Format} {j : Json} (hname : (name, F) ∈ contents)
      (hcontent : Laid F j) : Laid .payload (.variant name j)
  | items {F : Format} {s : Schema} {items : List Json} (hitem : F.item? = some s)
      (hitems : ∀ j ∈ items, Laid (.record s) j) : Laid F (.array items)
  | absent : Laid .optional .null
  | present {j : Json} (hnode : Laid (.record .tree) j) : Laid .optional j

/-- The second value is the first in another style. -/
inductive Restyled : Format → Json → Json → Prop
  | same (F : Format) (j : Json) : Restyled F j j
  /-- A record is written in any of its styles, its values restyled as well. -/
  | record {s : Schema} {rows : List Row} {j : Json} (hrows : Lists rows s)
      (hvalues : ∀ r ∈ rows, Restyled r.format r.before r.after)
      (hj : Writes (Row.changed rows) j) : Restyled (.record s) (Row.original rows) j
  /-- The empty payload is written with a content. -/
  | unit : Restyled .payload (.text "None") (.variant "None" .null)
  | content {name : String} {F : Format} {j k : Json} (hname : (name, F) ∈ contents)
      (hcontent : Restyled F j k) : Restyled .payload (.variant name j) (.variant name k)
  | items {F : Format} {s : Schema} {pairs : List (Json × Json)} (hitem : F.item? = some s)
      (hpairs : ∀ p ∈ pairs, Restyled (.record s) p.1 p.2) :
      Restyled F (.array (pairs.map Prod.fst)) (.array (pairs.map Prod.snd))
  | present {j k : Json} (hnode : Restyled (.record .tree) j k) : Restyled .optional j k

/-- The second value is the first with a defect in one of its records.  Beside the defect anything
may have been changed. -/
inductive Spoiled : Format → Json → Json → Prop
  /-- The record itself has a defect. -/
  | record {s : Schema} {rows : List Row} {j : Json} (hrows : Lists rows s)
      (hj : Spoils (Row.changed rows) j) : Spoiled (.record s) (Row.original rows) j
  /-- A value of the record is spoiled. -/
  | column {s : Schema} {rows : List Row} {j : Json} (hrows : Lists rows s)
      {r : Row} (hr : r ∈ rows) (hvalue : Spoiled r.format r.before r.after)
      (hj : Writes (Row.changed rows) j) : Spoiled (.record s) (Row.original rows) j
  | content {name : String} {F : Format} {j k : Json} (hname : (name, F) ∈ contents)
      (hcontent : Spoiled F j k) : Spoiled .payload (.variant name j) (.variant name k)
  | item {F : Format} {s : Schema} {pairs : List (Json × Json)} (hitem : F.item? = some s)
      {p : Json × Json} (hp : p ∈ pairs) (hpair : Spoiled (.record s) p.1 p.2) :
      Spoiled F (.array (pairs.map Prod.fst)) (.array (pairs.map Prod.snd))
  | present {j k : Json} (hnode : Spoiled (.record .tree) j k) : Spoiled .optional j k

/-! ## The layout of snapshots -/

/-- Columns and values that are laid out make up rows. -/
lemma exists_rows {columns : List (Column × Format)} {values : List Json}
    (h : List.Forall₂ (fun c v => Laid c.2 v) columns values) :
    ∃ rows : List Row, rows.map (fun r => (r.column, r.format)) = columns ∧
      (∀ r ∈ rows, Laid r.format r.before) ∧
      rows.map (fun r => (r.column.name, r.before)) =
        columns.zipWith (fun c v => (c.1.name, v)) values := by
  induction h with
  | nil => exact ⟨[], rfl, List.forall_mem_nil _, rfl⟩
  | @cons c v columns values hv _ ih =>
    obtain ⟨rows, hcolumns, hlaid, horiginal⟩ := ih
    refine ⟨⟨c.1, c.2, v, v⟩ :: rows, ?_, List.forall_mem_cons.2 ⟨hv, hlaid⟩, ?_⟩
    · rw [List.map_cons, hcolumns]
    · rw [List.map_cons, horiginal, List.zipWith_cons_cons]

/-- A record is laid out by its schema if the values of its columns are laid out by theirs. -/
lemma laid_record {s : Schema} (values : List Json)
    (h : List.Forall₂ (fun c v => Laid c.2 v) s.columns values) :
    Laid (.record s) (.record (s.columns.zipWith (fun c v => (c.1.name, v)) values)) := by
  obtain ⟨rows, hcolumns, hlaid, horiginal⟩ := exists_rows h
  rw [← horiginal]
  exact .record hcolumns hlaid

/-- A tree that may be absent is laid out if it is laid out whenever it is there. -/
lemma laid_encodeOption {t : Option Tree} (ht : ∀ u ∈ t.toList, Laid (.record .tree) u.encode) :
    Laid .optional (Tree.encodeOption t) := by
  cases t with
  | none => exact .absent
  | some u => exact .present (ht u (by simp))

/-- A list of trees is laid out if each of them is. -/
lemma laid_encodes {ts : List Tree} (hts : ∀ t ∈ ts, Laid (.record .tree) t.encode) :
    Laid .trees (.array (Tree.encodes ts)) := by
  rw [Tree.encodes_eq_map]
  exact .items rfl (List.forall_mem_map.2 hts)

/-- A case is laid out if its body is. -/
lemma laid_case {c : Case} (hc : Laid (.record .tree) c.body.encode) :
    Laid (.record .case) c.encode :=
  laid_record [_, _] (.cons (.words64 _) (.cons hc .nil))

/-- **Step.** A payload is laid out if its sub-trees are. -/
lemma laid_payload {p : Payload} (hp : ∀ t ∈ p.subtrees, Laid (.record .tree) t.encode) :
    Laid .payload p.encode := by
  cases p with
  | none => exact .unit
  | num w | obj w => exact .content (by decide) (.word64 w)
  | fnum x => exact .content (by decide) (.float x)
  | str s | helper s => exact .content (by decide) (.text s)
  | var w => exact .content (by decide) (.word32 w)
  | goto n => exact .content (by decide) (.label n)
  | asm ws => exact .content (by decide) (.words64 ws)
  | insn t | expr t => exact .content (by decide) (hp t List.mem_cons_self)
  | block ts => exact .content (by decide) (laid_encodes hp)
  | returned t => exact .content (by decide) (laid_encodeOption hp)
  | operands x y z =>
    have hx := hp x (by simp [Payload.subtrees])
    have hy := laid_encodeOption (t := y) fun u hu => hp u (by simp_all [Payload.subtrees])
    have hz := laid_encodeOption (t := z) fun u hu => hp u (by simp_all [Payload.subtrees])
    exact .content (by decide)
      (laid_record (s := .operands) [_, _, _] (.cons hx (.cons hy (.cons hz .nil))))
  | call callee args =>
    have hcallee := hp callee (by simp [Payload.subtrees])
    have hargs := laid_encodes fun u hu => hp u (List.mem_cons_of_mem callee hu)
    exact .content (by decide)
      (laid_record (s := .call) [_, _] (.cons hcallee (.cons hargs .nil)))
  | member x m =>
    have hx := hp x (by simp [Payload.subtrees])
    exact .content (by decide)
      (laid_record (s := .member) [_, _] (.cons hx (.cons (.word32 m) .nil)))
  | branch cond thenBranch otherwise =>
    have hcond := hp cond (by simp [Payload.subtrees])
    have hthen := hp thenBranch (by simp [Payload.subtrees])
    have helse := laid_encodeOption (t := otherwise) fun u hu =>
      hp u (by simp_all [Payload.subtrees])
    exact .content (by decide)
      (laid_record (s := .branch) [_, _, _] (.cons hcond (.cons hthen (.cons helse .nil))))
  | counting init cond step body =>
    have hinit := hp init (by simp [Payload.subtrees])
    have hcond := hp cond (by simp [Payload.subtrees])
    have hstep := hp step (by simp [Payload.subtrees])
    have hbody := hp body (by simp [Payload.subtrees])
    exact .content (by decide) (laid_record (s := .counting) [_, _, _, _]
      (.cons hinit (.cons hcond (.cons hstep (.cons hbody .nil)))))
  | loop cond body =>
    have hcond := hp cond (by simp [Payload.subtrees])
    have hbody := hp body (by simp [Payload.subtrees])
    exact .content (by decide)
      (laid_record (s := .loop) [_, _] (.cons hcond (.cons hbody .nil)))
  | switch e cases =>
    have he := hp e (by simp [Payload.subtrees])
    have hcases : Laid .cases (.array (Case.encodes cases)) := by
      rw [Case.encodes_eq_map]
      refine .items rfl (List.forall_mem_map.2 fun c hc => laid_case (hp _ ?_))
      exact List.mem_cons_of_mem e (List.mem_map_of_mem hc)
    exact .content (by decide)
      (laid_record (s := .switch) [_, _] (.cons he (.cons hcases .nil)))

/-- **Run.** The snapshot of a tree is laid out by the format. -/
theorem laid_tree (t : Tree) : Laid (.record .tree) t.encode := by
  induction t using Tree.subtreeInduction with
  | step t ih =>
    obtain ⟨ea, op, payload⟩ := t
    exact laid_record [_, _, _]
      (.cons (.word64 ea) (.cons (.tag op) (.cons (laid_payload ih) .nil)))

/-- The snapshot of a function is laid out by the format. -/
lemma laid_function (f : Function Tree) : Laid (.record .function) f.encode :=
  laid_record [_, _, _]
    (.cons (.word64 f.ea) (.cons (.text f.name) (.cons (laid_tree f.body) .nil)))

/-! ## Reading a record in any style -/

/-- The columns of rows are read one by one. -/
lemma readColumns_map (rows : List Row) (value : Row → Json) :
    readColumns (rows.map fun r => (r.column, r.format)) (rows.map value) =
      rows.mapM fun r : Row => r.format.decode? (value r) := by
  rw [readColumns, List.zip_map', List.mapM_map]
  rfl

/-- The names of the columns are different. -/
lemma Lists.nodup_names {rows : List Row} {s : Schema} (hrows : Lists rows s)
    (value : Row → Json) :
    ((rows.map fun r => (r.column, value r)).map fun r => r.1.name).Nodup := by
  have hnodup := s.nodup_names
  rw [← hrows, List.map_map] at hnodup
  rw [List.map_map]
  exact hnodup

/-- The columns of a record are those of its rows. -/
lemma Lists.columns_eq {rows : List Row} {s : Schema} (hrows : Lists rows s)
    (value : Row → Json) :
    (rows.map fun r => (r.column, value r)).map Prod.fst = s.columns.map Prod.fst := by
  rw [← hrows, List.map_map, List.map_map]
  rfl

/-- **Step.** A record in any style is read from its values. -/
lemma Lists.decode?_of_writes {rows : List Row} {s : Schema} (hrows : Lists rows s)
    {value : Row → Json} {j : Json} (hj : Writes (rows.map fun r => (r.column, value r)) j) :
    s.decode? j = (rows.mapM fun r : Row => r.format.decode? (value r)).bind s.build := by
  obtain ⟨ps, hps, hholds⟩ := Json.columns?_of_writes hj (hrows.nodup_names value)
  rw [hrows.columns_eq value] at hps
  rw [List.forall₂_map_left_iff] at hholds
  have hfill : List.Forall₂ (fun c p => Fills c.1 p) s.columns ps := by
    rw [← hrows, List.forall₂_map_left_iff]
    exact hholds.imp fun r p h => fills_of_holds h
  have hvalues : ps.map columnValue = rows.map value := by
    rw [← List.forall₂_eq_eq_eq, List.forall₂_map_left_iff, List.forall₂_map_right_iff]
    exact hholds.flip.imp fun p r h => columnValue_of_holds h
  rw [Schema.decode?_of_columns hps hfill, hvalues, ← readColumns_map, hrows]

/-- A record with a defect is refused. -/
lemma Lists.decode?_of_spoils {rows : List Row} {s : Schema} (hrows : Lists rows s) {j : Json}
    (hj : Spoils (Row.changed rows) j) : s.decode? j = none := by
  have hcols := Json.columns?_of_spoils hj (hrows.nodup_names Row.after)
  rw [Row.changed, hrows.columns_eq Row.after] at hcols
  exact Schema.decode?_of_none hcols

/-! ## Reading any snapshot in any style -/

/-- No style is taken for an absent value. -/
lemma Restyled.isNull_eq {F : Format} {j k : Json} (h : Restyled F j k) : k.isNull = j.isNull := by
  induction h with
  | same | unit | content | items => rfl
  | record _ _ hj => exact hj.isNull_eq
  | present _ ih => exact ih

/-- A spoiled value is not absent. -/
lemma Spoiled.isNull_eq {F : Format} {j k : Json} (h : Spoiled F j k) : k.isNull = false := by
  induction h with
  | record _ hj => exact hj.isNull_eq
  | column _ _ _ hj => exact hj.isNull_eq
  | content | item => rfl
  | present _ ih => exact ih

/-- **Run.** The same is read from a value in every style. -/
theorem Restyled.decode?_eq {F : Format} {j k : Json} (h : Restyled F j k) :
    F.decode? k = F.decode? j := by
  induction h with
  | same => rfl
  | @record s rows j hrows _ hj ih =>
    have horiginal : Writes (rows.map fun r => (r.column, r.before)) (Row.original rows) := by
      have hwrites := Json.writes_record (rows.map fun r => (r.column, r.before))
      rw [List.map_map] at hwrites
      exact hwrites
    rw [Format.decode?, Format.decode?, hrows.decode?_of_writes hj,
      hrows.decode?_of_writes horiginal, Json.mapM_congr ih]
  | unit =>
    rw [Format.decode?, Format.decode?, Payload.decode?_variant, Payload.decodeContent?,
      Payload.decode?]
    rfl
  | content hname _ ih => rw [Format.decode?_variant hname, Format.decode?_variant hname, ih]
  | items hitem _ ih =>
    rw [Format.decode?_array hitem, Format.decode?_array hitem, List.mapM_map, List.mapM_map]
    exact congrArg (Option.bind · _) (Json.mapM_congr ih)
  | present hnode ih =>
    rw [Format.decode?_optional, Format.decode?_optional, hnode.isNull_eq]
    rw [Format.decode?, Format.decode?] at ih
    rw [ih]

/-- **Run.** Nothing is read from a value with a defect. -/
theorem Spoiled.decode?_eq_none {F : Format} {j k : Json} (h : Spoiled F j k) :
    F.decode? k = none := by
  induction h with
  | record hrows hj => exact hrows.decode?_of_spoils hj
  | @column s rows j hrows r hr _ hj ih =>
    have hnone : (rows.mapM fun r : Row => r.format.decode? r.after) = none :=
      Json.mapM_eq_none hr ih
    rw [Format.decode?, hrows.decode?_of_writes hj, hnone]
    rfl
  | content hname _ ih =>
    rw [Format.decode?_variant hname, ih]
    rfl
  | item hitem hp _ ih =>
    rw [Format.decode?] at ih
    rw [Format.decode?_array hitem, Json.mapM_eq_none (List.mem_map_of_mem hp) ih]
    rfl
  | present hnode ih =>
    rw [Format.decode?_optional, hnode.isNull_eq]
    rw [Format.decode?] at ih
    rw [ih]
    rfl

/-! ## Texts -/

/-- The value `a` is read from the texts of its snapshot in every style, and from none that has a
defect. -/
structure StyleFree {α : Type} (s : Schema) (encode : α → Json) (decode? : Json → Option α)
    (a : α) : Prop where
  /-- The snapshot is laid out by the format all through, so that every record in it can be written
  in other styles. -/
  laid : Laid (.record s) (encode a)
  /-- Every text of the snapshot, restyled anywhere and with blanks anywhere, is restored to the
  value. -/
  restored : ∀ j text, Restyled (.record s) (encode a) j → j.IsText text →
    restoredFrom? decode? text = some a
  /-- Every text of the snapshot with a defect in one record is refused. -/
  refused : ∀ j text, Spoiled (.record s) (encode a) j → j.IsText text →
    restoredFrom? decode? text = none

/-- A value is read in every style if it is read from its snapshot by a reader that the format
describes. -/
lemma styleFree_of {α : Type} {s : Schema} {encode : α → Json} {decode? : Json → Option α}
    {datum : α → Datum} (hread : ∀ j, s.decode? j = (decode? j).map datum)
    (hdatum : ∀ a b, datum a = datum b → a = b) {a : α} (hlaid : Laid (.record s) (encode a))
    (ha : decode? (encode a) = some a) : StyleFree s encode decode? a := by
  have htext : ∀ j text, j.IsText text → restoredFrom? decode? text = decode? j := by
    intro j text h
    rw [restoredFrom?, Json.parse?_of_isText h, Option.bind_some]
  refine ⟨hlaid, fun j text hj h => ?_, fun j text hj h => ?_⟩
  · have hsame : s.decode? j = s.decode? (encode a) := hj.decode?_eq
    rw [hread, hread, ha] at hsame
    obtain ⟨b, hb, hab⟩ := Option.map_eq_some_iff.1 hsame
    rw [htext j text h, hb, hdatum b a hab]
  · have hnone : s.decode? j = none := hj.decode?_eq_none
    rw [hread] at hnone
    rw [htext j text h, Option.map_eq_none_iff.1 hnone]

end Snapshot

open Snapshot

/-- **Snapshots are read in every style.**  Take a tree, a case or a function with only finite
floating point numbers, and its snapshot.  In any of its records, at any depth, put the fields in
another order, add fields with unknown names and any values, repeated or not, leave out optional
columns that are `null`, or write the record as the array of all its values; write an empty payload
as a field with the value `null`; write any blanks between the tokens.  The text is restored to
exactly that tree, case or function.  But if a required column is missing from one of the records
or a known name is repeated in it, or if a value is missing from an array that stands for a record
or is added to it, the text is refused. -/
theorem snapshots_read_in_every_style :
    (∀ t : Tree, t.AllFinite → StyleFree .tree Tree.encode (Tree.decode? .text) t) ∧
    (∀ c : Case, c.AllFinite → StyleFree .case Case.encode (Case.decode? .text) c) ∧
    (∀ f : Function Tree, f.AllFinite →
      StyleFree .function Function.encode (Function.decode? .text) f) := by
  refine ⟨fun t ht => ?_, fun c hc => ?_, fun f hf => ?_⟩
  · have hread : Tree.decode? .text t.encode = some t := (t.restored .text t).2 ⟨ht, rfl⟩
    exact styleFree_of (fun _ => rfl) (fun _ _ h => Datum.tree.inj h) (laid_tree t) hread
  · have hread : Case.decode? .text c.encode = some c :=
      (Case.recovers_encode (c.body.restored .text) c).2 ⟨hc, rfl⟩
    exact styleFree_of (fun _ => rfl) (fun _ _ h => Datum.case.inj h)
      (laid_case (laid_tree c.body)) hread
  · have hread : Function.decode? .text f.encode = some f := (f.recovers_encode f).2 ⟨hf, rfl⟩
    exact styleFree_of (fun _ => rfl) (fun _ _ h => Datum.function.inj h) (laid_function f) hread

/-- A node with one operand.  Unknown fields stand before those of the node, which are in reverse
order; an absent operand is left out; the operand that is there is written by position, and its
empty payload as a field.  With the operands by position but one of them dropped, the text is
refused. -/
theorem snapshots_read_in_every_style_operand :
    let x : Tree := .node 2 ⟨0⟩ .none
    let t : Tree := .node 1 ⟨47⟩ (.operands x none none)
    let text (j : Json) : String := String.join (j.tokens.map fun t => "\n" ++ t.text)
    let operand : Json := .array [.nat 2, .int 0, .variant "None" .null]
    let styled : Json := .record [("note", .null), ("note", .array []),
      ("payload", .variant "Operands" (.record [("z", .null), ("x", operand)])), ("op", .int 47),
      ("ea", .nat 1)]
    let spoiled : Json := .record [("ea", .nat 1), ("op", .int 47),
      ("payload", .variant "Operands" (.array [x.encode, .null]))]
    t.AllFinite ∧ Restyled (.record .tree) t.encode styled ∧
      restoredFrom? (Tree.decode? .text) (text styled) = some t ∧
      Spoiled (.record .tree) t.encode spoiled ∧
      restoredFrom? (Tree.decode? .text) (text spoiled) = none := by
  intro x t text operand styled spoiled
  have hfinite : t.AllFinite := by
    refine (Payload.allFinite_iff_subtrees fun _ h => by cases h).2 fun u hu => ?_
    obtain rfl := List.mem_singleton.1 hu
    exact (Payload.allFinite_iff_subtrees fun _ h => by cases h).2 (List.forall_mem_nil _)
  have htext : ∀ j : Json, j.WellFormed → j.IsText (text j) := fun j hj =>
    hj.isText_join "\n" (List.all_eq_true.1 (rfl : "\n".toList.all Json.Token.isBlank = true))
  have hfree := snapshots_read_in_every_style.1 t hfinite
  -- The operand by position, its empty payload with a content.
  have hoperand : Restyled (.record .tree) x.encode operand :=
    @Restyled.record .tree
      [⟨.required "ea", .word64, .nat 2, .nat 2⟩, ⟨.required "op", .tag, .int 0, .int 0⟩,
        ⟨.required "payload", .payload, .text "None", .variant "None" .null⟩] _ rfl
      (List.forall_mem_cons.2 ⟨.same _ _, List.forall_mem_cons.2 ⟨.same _ _,
        List.forall_mem_singleton.2 .unit⟩⟩) .positional
  -- The operands in another order, one absent operand left out.
  have hnaming : Json.Naming
      [(.required "x", operand), (.maybe "y", .null), (.maybe "z", .null)]
      [(.required "x", operand), (.maybe "z", .null)] [] [("z", .null), ("x", operand)] := by
    refine ⟨.cons_cons _ (.cons _ (.refl _)), ?_, List.forall_mem_nil _, .swap _ _ _⟩
    intro r hr hkept
    rcases List.mem_cons.1 hr with rfl | hr
    · exact absurd List.mem_cons_self hkept
    rcases List.mem_cons.1 hr with rfl | hr
    · exact ⟨rfl, rfl⟩
    · exact absurd (List.mem_cons_of_mem _ hr) hkept
  have hoperands : Restyled (.record .operands)
      (.record [("x", x.encode), ("y", .null), ("z", .null)])
      (.record [("z", .null), ("x", operand)]) :=
    @Restyled.record .operands
      [⟨.required "x", .record .tree, x.encode, operand⟩, ⟨.maybe "y", .optional, .null, .null⟩,
        ⟨.maybe "z", .optional, .null, .null⟩] _ rfl
      (List.forall_mem_cons.2 ⟨hoperand, List.forall_mem_cons.2 ⟨.same _ _,
        List.forall_mem_singleton.2 (.same _ _)⟩⟩) (.named hnaming)
  have hstyled : Restyled (.record .tree) t.encode styled := by
    refine @Restyled.record .tree
      [⟨.required "ea", .word64, .nat 1, .nat 1⟩, ⟨.required "op", .tag, .int 47, .int 47⟩,
        ⟨.required "payload", .payload, t.payload.encode,
          .variant "Operands" (.record [("z", .null), ("x", operand)])⟩] _ rfl
      (List.forall_mem_cons.2 ⟨.same _ _, List.forall_mem_cons.2 ⟨.same _ _,
        List.forall_mem_singleton.2 (.content (by decide) hoperands)⟩⟩) ?_
    exact .named (⟨.refl _, fun _ hr h => absurd hr h, by decide, List.reverse_perm _⟩ :
      Json.Naming _ _ [("note", .array []), ("note", .null)] _)
  -- The operands by position, but one of them is dropped.
  have hdropped : Json.Spoils [(.required "x", x.encode), (.maybe "y", .null), (.maybe "z", .null)]
      (.array [x.encode, .null]) :=
    @Json.Spoils.dropped _ [x.encode] [.null] .null rfl
  have hspoiled : Spoiled (.record .tree) t.encode spoiled := by
    refine @Spoiled.column .tree
      [⟨.required "ea", .word64, .nat 1, .nat 1⟩, ⟨.required "op", .tag, .int 47, .int 47⟩,
        ⟨.required "payload", .payload, t.payload.encode,
          .variant "Operands" (.array [x.encode, .null])⟩] _ rfl _
      (List.mem_cons_of_mem _ (List.mem_cons_of_mem _ List.mem_cons_self)) ?_
      (Json.writes_record _)
    exact .content (by decide) (@Spoiled.record .operands
      [⟨.required "x", .record .tree, x.encode, x.encode⟩, ⟨.maybe "y", .optional, .null, .null⟩,
        ⟨.maybe "z", .optional, .null, .null⟩] _ rfl hdropped)
  refine ⟨hfinite, hstyled, hfree.restored styled _ hstyled (htext styled ?_), hspoiled,
    hfree.refused spoiled _ hspoiled (htext spoiled ?_)⟩
  · simp [styled, operand]
  · simp [spoiled, Tree.wellFormed_encode]

end Pseudocode
