import Pseudocode.Proofs.Tree.Snapshot

/-!
# Snapshots are restored

Trees, payloads, cases and functions are written to a text and read from it again.  A value is
restored exactly, bit for bit, if all floating point numbers in it are finite, and refused if not;
and whatever is read from any text at all has only finite ones, so that writing and reading it once
more changes nothing (`snapshots_restored`).

A reader accepts much that no writer produces: columns in another order or by position, numerals of
any length, blanks.  That only finite numbers come out of it is shown by looking at one payload: if
it is read, it is itself finite, and its sub-trees are read (`Payload.read_of_decodeContent?`).
-/

namespace Pseudocode

variable {o : Origin}

/-! ## Reading anything -/

/-- The tree is read from some value. -/
def Tree.Decoded (o : Origin) (t : Tree) : Prop := ∃ j, Tree.decode? o j = some t

namespace Tree

/-- A tree that may be absent and is read where it is there is read. -/
lemma decoded_of_decodeOption? {j : Json} {t : Option Tree} (h : decodeOption? o j = some t) :
    ∀ u ∈ t.toList, u.Decoded o := by
  intro u hu
  rw [decodeOption?] at h
  split_ifs at h
  · cases h
    cases hu
  · obtain ⟨v, hv, rfl⟩ := Option.map_eq_some_iff.1 h
    obtain rfl : u = v := by simpa using hu
    exact ⟨j, hv⟩

/-- The same in a column that may be left out. -/
lemma decoded_of_decodePart? {j : Json} {p : Option j.Part} {t : Option Tree}
    (h : decodePart? o p = some t) : ∀ u ∈ t.toList, u.Decoded o := by
  rcases p with _ | p
  · rw [decodePart?] at h
    cases h
    exact List.forall_mem_nil _
  · rw [decodePart?] at h
    exact decoded_of_decodeOption? h

/-- The trees of a list that is read are read. -/
lemma decoded_of_decodeAll? {j : Json} {ts : List Tree} (h : decodeAll? o j = some ts) :
    ∀ t ∈ ts, t.Decoded o := by
  intro t ht
  rw [decodeAll?] at h
  split at h
  · obtain ⟨p, hp⟩ := exists_of_mem_mapM h ht
    exact ⟨p.1, hp⟩
  · cases h

end Tree

namespace Case

/-- The body of a case that is read is read. -/
lemma decoded_of_decode? {j : Json} {c : Case} (h : Case.decode? o j = some c) :
    c.body.Decoded o := by
  rw [Case.decode?] at h
  split at h
  · rename_i body _
    obtain ⟨vs, _, h⟩ := Option.bind_eq_some_iff.1 h
    obtain ⟨t, ht, h⟩ := Option.bind_eq_some_iff.1 h
    cases h
    exact ⟨body.1, ht⟩
  · cases h

/-- The bodies of a list of cases that is read are read. -/
lemma decoded_of_decodeAll? {j : Json} {cs : List Case} (h : Case.decodeAll? o j = some cs) :
    ∀ t ∈ cs.map Case.body, t.Decoded o := by
  intro t ht
  obtain ⟨c, hc, rfl⟩ := List.mem_map.1 ht
  rw [Case.decodeAll?] at h
  split at h
  · obtain ⟨p, hp⟩ := exists_of_mem_mapM h hc
    exact decoded_of_decode? hp
  · cases h

end Case

namespace Payload

/-- What is known of a payload that was read: if it is a floating point number, that is finite, and
its sub-trees were read. -/
structure Read (o : Origin) (p : Payload) : Prop where
  number : ∀ x, p = .fnum x → x.isFinite
  subtrees : ∀ t ∈ p.subtrees, t.Decoded o

/-- A payload other than a number is read if its sub-trees are. -/
lemma read_of_subtrees {p : Payload} (hp : ∀ x, p ≠ .fnum x)
    (hsub : ∀ t ∈ p.subtrees, t.Decoded o) : p.Read o :=
  ⟨fun x h => absurd h (hp x), hsub⟩

/-- **Step.** A payload whose content is read under its name is itself finite, and its sub-trees
are read. -/
lemma read_of_decodeContent? {name : String} {j : Json} {p : Payload}
    (h : decodeContent? o name j = some p) : p.Read o := by
  -- One case for each name, in the order in which they are tried.
  rw [decodeContent?.eq_def] at h
  split at h
  case h_1 =>
    split_ifs at h
    cases h
    exact read_of_subtrees (by simp) (List.forall_mem_nil _)
  case h_2 =>
    split at h
    · simp only [Option.bind_eq_bind, Option.bind_eq_some_iff] at h
      obtain ⟨x, hx, y, hy, z, hz, h⟩ := h
      cases h
      have hrest := List.forall_mem_append.2
        ⟨Tree.decoded_of_decodePart? hy, Tree.decoded_of_decodePart? hz⟩
      exact read_of_subtrees (by simp) (List.forall_mem_cons.2 ⟨⟨_, hx⟩, hrest⟩)
    · cases h
  case h_3 =>
    split at h
    · simp only [Option.bind_eq_bind, Option.bind_eq_some_iff] at h
      obtain ⟨callee, hcallee, args, hargs, h⟩ := h
      cases h
      have hrest := Tree.decoded_of_decodeAll? hargs
      exact read_of_subtrees (by simp) (List.forall_mem_cons.2 ⟨⟨_, hcallee⟩, hrest⟩)
    · cases h
  case h_4 =>
    split at h
    · simp only [Option.bind_eq_bind, Option.bind_eq_some_iff] at h
      obtain ⟨x, hx, m, _, h⟩ := h
      cases h
      exact read_of_subtrees (by simp) (List.forall_mem_singleton.2 ⟨_, hx⟩)
    · cases h
  case h_6 =>
    obtain ⟨x, hx, rfl⟩ := Option.map_eq_some_iff.1 h
    refine ⟨?_, List.forall_mem_nil _⟩
    intro y hy
    cases hy
    exact Json.isFinite_of_binary64? hx
  case h_11 =>
    obtain ⟨stmt, hstmt, rfl⟩ := Option.map_eq_some_iff.1 h
    exact read_of_subtrees (by simp) (List.forall_mem_singleton.2 ⟨_, hstmt⟩)
  case h_12 =>
    obtain ⟨stmts, hstmts, rfl⟩ := Option.map_eq_some_iff.1 h
    exact read_of_subtrees (by simp) (Tree.decoded_of_decodeAll? hstmts)
  case h_13 =>
    obtain ⟨e, he, rfl⟩ := Option.map_eq_some_iff.1 h
    exact read_of_subtrees (by simp) (List.forall_mem_singleton.2 ⟨_, he⟩)
  case h_14 =>
    split at h
    · simp only [Option.bind_eq_bind, Option.bind_eq_some_iff] at h
      obtain ⟨cond, hcond, thenBranch, hthen, otherwise, helse, h⟩ := h
      cases h
      have hrest := List.forall_mem_cons.2 ⟨⟨_, hthen⟩, Tree.decoded_of_decodePart? helse⟩
      exact read_of_subtrees (by simp) (List.forall_mem_cons.2 ⟨⟨_, hcond⟩, hrest⟩)
    · cases h
  case h_15 =>
    split at h
    · simp only [Option.bind_eq_bind, Option.bind_eq_some_iff] at h
      obtain ⟨init, hinit, cond, hcond, step, hstep, body, hbody, h⟩ := h
      cases h
      refine read_of_subtrees (by simp) ?_
      simp only [subtrees, List.forall_mem_cons]
      exact ⟨⟨_, hinit⟩, ⟨_, hcond⟩, ⟨_, hstep⟩, ⟨_, hbody⟩, List.forall_mem_nil _⟩
    · cases h
  case h_16 =>
    split at h
    · simp only [Option.bind_eq_bind, Option.bind_eq_some_iff] at h
      obtain ⟨cond, hcond, body, hbody, h⟩ := h
      cases h
      have hrest : ∀ t ∈ [body], t.Decoded o := List.forall_mem_singleton.2 ⟨_, hbody⟩
      exact read_of_subtrees (by simp) (List.forall_mem_cons.2 ⟨⟨_, hcond⟩, hrest⟩)
    · cases h
  case h_17 =>
    split at h
    · simp only [Option.bind_eq_bind, Option.bind_eq_some_iff] at h
      obtain ⟨e, he, cases, hcases, h⟩ := h
      cases h
      have hrest := Case.decoded_of_decodeAll? hcases
      exact read_of_subtrees (by simp) (List.forall_mem_cons.2 ⟨⟨_, he⟩, hrest⟩)
    · cases h
  case h_18 =>
    obtain ⟨value, hvalue, rfl⟩ := Option.map_eq_some_iff.1 h
    exact read_of_subtrees (by simp) (Tree.decoded_of_decodeOption? hvalue)
  case h_21 => cases h
  -- What is left are numbers, texts, labels and instructions.
  all_goals
    obtain ⟨_, _, rfl⟩ := Option.map_eq_some_iff.1 h
    exact read_of_subtrees (by simp) (List.forall_mem_nil _)

/-- A payload that is read is itself finite, and its sub-trees are read. -/
lemma read_of_decode? {j : Json} {p : Payload} (h : Payload.decode? o j = some p) : p.Read o := by
  rw [Payload.decode?] at h
  split at h
  · split_ifs at h
    cases h
    exact read_of_subtrees (by simp) (List.forall_mem_nil _)
  · exact read_of_decodeContent? h
  · cases h

end Payload

namespace Tree

/-- The payload of a tree that is read is read. -/
lemma read_payload_of_decoded {t : Tree} (ht : t.Decoded o) : t.payload.Read o := by
  obtain ⟨j, h⟩ := ht
  rw [decode?] at h
  split at h
  · simp only [Option.bind_eq_bind, Option.bind_eq_some_iff] at h
    obtain ⟨ea, _, op, _, payload, hpayload, h⟩ := h
    cases h
    exact Payload.read_of_decode? hpayload
  · cases h

/-- **Run.** A tree that is read has only finite numbers. -/
theorem allFinite_of_decoded {t : Tree} (ht : t.Decoded o) : t.AllFinite := by
  induction t using subtreeInduction with
  | step t ih =>
    have hread := read_payload_of_decoded ht
    exact Payload.allFinite_iff.2 ⟨hread.number, fun u hu => ih u hu (hread.subtrees u hu)⟩

end Tree

/-- A payload that is read has only finite numbers. -/
lemma Payload.allFinite_of_decode? {j : Json} {p : Payload} (h : Payload.decode? o j = some p) :
    p.AllFinite := by
  have hread := Payload.read_of_decode? h
  exact Payload.allFinite_iff.2
    ⟨hread.number, fun t ht => Tree.allFinite_of_decoded (hread.subtrees t ht)⟩

/-- A function that is read has only finite numbers. -/
lemma Function.allFinite_of_decode? {j : Json} {f : Function Tree}
    (h : Function.decode? o j = some f) : f.AllFinite := by
  rw [Function.decode?] at h
  split at h
  · simp only [Option.bind_eq_bind, Option.bind_eq_some_iff] at h
    obtain ⟨ea, _, name, _, body, hbody, h⟩ := h
    cases h
    exact Tree.allFinite_of_decoded ⟨_, hbody⟩
  · cases h

/-! ## Texts -/

section Texts

variable {α : Type} (encode : α → Json) (decode? : Json → Option α)

/-- The text that a value is saved as. -/
def savedText (a : α) : String := (encode a).write

/-- The value that a text is restored to. -/
def restoredFrom? (s : String) : Option α := (Json.parse? s).bind decode?

/-- Saving and restoring fit together, where only the values in `Finite` can be saved. -/
structure Restorable (Finite : α → Prop) : Prop where
  /-- A value is restored from its text exactly as it was if it is finite, and refused if not. -/
  restored : ∀ a b, restoredFrom? decode? (savedText encode a) = some b ↔ Finite a ∧ b = a
  /-- Whatever a text is restored to is finite. -/
  finite : ∀ s a, restoredFrom? decode? s = some a → Finite a
  /-- Whatever a text is restored to is saved as a text that is restored to the same value, and what
  that text is restored to is saved as the same text. -/
  settled : ∀ s a, restoredFrom? decode? s = some a →
    restoredFrom? decode? (savedText encode a) = some a ∧
      ∀ b, restoredFrom? decode? (savedText encode a) = some b → savedText encode b = savedText encode a

variable {encode decode?}

/-- Saving and restoring fit together if snapshots can be written and recover the finite values, and
if only finite values are read. -/
lemma restorable_of {Finite : α → Prop} (hwrite : ∀ a, (encode a).WellFormed)
    (hread : ∀ a, Recovers (decode? (encode a)) a (Finite a))
    (hfinite : ∀ j a, decode? j = some a → Finite a) : Restorable encode decode? Finite := by
  have htext : ∀ a, restoredFrom? decode? (savedText encode a) = decode? (encode a) := by
    intro a
    rw [restoredFrom?, savedText, Json.parse?_write (hwrite a), Option.bind_some]
  have hall : ∀ s a, restoredFrom? decode? s = some a → Finite a := by
    intro s a h
    obtain ⟨j, _, hj⟩ := Option.bind_eq_some_iff.1 h
    exact hfinite j a hj
  refine ⟨fun a b => by rw [htext, hread a b], hall, fun s a h => ⟨?_, fun b hb => ?_⟩⟩
  · rw [htext]
    exact (hread a a).2 ⟨hall s a h, rfl⟩
  · rw [htext] at hb
    rw [((hread a b).1 hb).2]

end Texts

/-- **Snapshots are restored.**  For trees, payloads, cases and functions alike, well formed or not:
saving a value and restoring the text succeeds exactly if every floating point number anywhere in
the value is finite, and then gives back the value itself, every number bit for bit.  Every value
that any text is restored to has only finite numbers; saving it again gives a text that is restored
to the same value and saved as the same text. -/
theorem snapshots_restored :
    Restorable Tree.encode (Tree.decode? .text) Tree.AllFinite ∧
    Restorable Payload.encode (Payload.decode? .text) Payload.AllFinite ∧
    Restorable Case.encode (Case.decode? .text) Case.AllFinite ∧
    Restorable Function.encode (Function.decode? .text) Function.AllFinite := by
  refine ⟨?_, ?_, ?_, ?_⟩
  · exact restorable_of Tree.wellFormed_encode (Tree.restored .text) fun j t h =>
      Tree.allFinite_of_decoded ⟨j, h⟩
  · exact restorable_of Payload.wellFormed_encode
      (fun p => Payload.recovers_encode fun t _ => t.restored .text)
      fun j p h => Payload.allFinite_of_decode? h
  · exact restorable_of (fun c => Case.wellFormed_encode.2 c.body.wellFormed_encode)
      (fun c => Case.recovers_encode (c.body.restored .text))
      fun j c h => Tree.allFinite_of_decoded (Case.decoded_of_decode? h)
  · exact restorable_of Function.wellFormed_encode Function.recovers_encode
      fun j f h => Function.allFinite_of_decode? h

end Pseudocode
