import ApiBook.Page.Signature
import ApiBook.Proofs.Text.Spans

/-! # Short types

A type is made of pieces with delimiters between them. Its short form has the same delimiters in the
same places, and of each piece what stands behind its last dot, however the delimiters nest and
whatever the pieces are.
-/

namespace ApiBook

namespace Text

variable {c : Char} {a b s : Text}

theorem afterLast_of_notMem (h : c ∉ s) : afterLast c s = s := by
  unfold afterLast
  split
  · rename_i a b hcut
    exact absurd ((cutLast?_eq_some hcut).1 ▸ List.mem_append_right a List.mem_cons_self) h
  · rfl

theorem cutLast?_append_cons (h : c ∉ b) : cutLast? c (a ++ c :: b) = some (a, b) := by
  have hb : cutLast? c b = none := by
    cases hcut : cutLast? c b with
    | none => rfl
    | some p => exact absurd ((cutLast?_eq_some hcut).1 ▸ by simp) h
  induction a with
  | nil => simp [cutLast?, hb]
  | cons d a ih => rw [List.cons_append, cutLast?, ih]

theorem exists_eq_append_afterLast (c : Char) (s : Text) :
    ∃ a, s = a ++ afterLast c s ∧ (a = [] ∨ ∃ a', a = a' ++ [c]) ∧ c ∉ afterLast c s := by
  unfold afterLast
  split
  · rename_i a b hcut
    obtain ⟨hs, hb⟩ := cutLast?_eq_some hcut
    exact ⟨a ++ [c], by simp [hs], .inr ⟨a, rfl⟩, hb⟩
  · rename_i hcut
    exact ⟨[], rfl, .inl rfl, cutLast?_eq_none hcut⟩

@[simp] theorem notMem_afterLast (c : Char) (s : Text) : c ∉ afterLast c s := by
  obtain ⟨a, -, -, h⟩ := exists_eq_append_afterLast c s
  exact h

theorem mem_of_mem_afterLast {d : Char} (h : d ∈ afterLast c s) : d ∈ s := by
  obtain ⟨a, hs, -⟩ := exists_eq_append_afterLast c s
  rw [hs]
  exact List.mem_append_right a h

@[simp] theorem afterLast_append_cons (c : Char) (a b : Text) :
    afterLast c (a ++ c :: b) = afterLast c b := by
  obtain ⟨x, hb, hx, hc⟩ := exists_eq_append_afterLast c b
  generalize afterLast c b = y at hb hc
  subst hb
  rcases hx with rfl | ⟨x, rfl⟩
  · rw [List.nil_append, afterLast, cutLast?_append_cons hc]
  · have happ : a ++ c :: (x ++ [c] ++ y) = (a ++ c :: x) ++ c :: y := by simp
    rw [happ, afterLast, cutLast?_append_cons hc]

end Text

namespace Page

/-- Brackets of generic and array types, and the comma between their arguments. -/
def typeDelimiters : List Char := ['{', '}', ',', '[', ']']

def IsTypePiece (p : Text) : Prop := ∀ c ∈ p, c ∉ typeDelimiters

instance : DecidablePred IsTypePiece := List.decidableBAll (· ∉ typeDelimiters)

abbrev TypePiece := {p : Text // IsTypePiece p}

abbrev TypeDelimiter := {c : Char // c ∈ typeDelimiters}

/-- A type as pieces with delimiters between them. -/
inductive TypeParts
  | last (p : TypePiece)
  | cons (p : TypePiece) (d : TypeDelimiter) (rest : TypeParts)

/-- What stands behind the last dot of a piece, all of it when there is none. -/
def TypePiece.name (p : TypePiece) : TypePiece :=
  ⟨Text.afterLast '.' p.1, fun c hc => p.2 c (Text.mem_of_mem_afterLast hc)⟩

theorem TypePiece.name_of_notMem {p : TypePiece} (h : '.' ∉ p.1) : p.name = p :=
  Subtype.ext (Text.afterLast_of_notMem h)

namespace TypeParts

def print : TypeParts → Text
  | last p => p.1
  | cons p d rest => p.1 ++ d.1 :: rest.print

def names : TypeParts → TypeParts
  | last p => last p.name
  | cons p d rest => cons p.name d rest.names

end TypeParts

variable {a b p segment s : Text} {c d : Char}

@[simp] theorem isTypeDelimiter_iff : isTypeDelimiter c = true ↔ c ∈ typeDelimiters := by
  simp [isTypeDelimiter, typeDelimiters, or_assoc]

theorem ne_dot_of_mem_typeDelimiters (hd : d ∈ typeDelimiters) : d ≠ '.' := by
  rintro rfl
  exact absurd hd (by decide)

theorem shortTypeFrom_append (hd : d ∈ typeDelimiters) :
    shortTypeFrom segment (a ++ d :: b) = shortTypeFrom segment a ++ d :: shortType b := by
  have hdot := ne_dot_of_mem_typeDelimiters hd
  have hd := isTypeDelimiter_iff.2 hd
  induction a generalizing segment with
  | nil => simp only [List.nil_append, shortTypeFrom, if_neg hdot, if_pos hd, shortType]
  | cons c a ih =>
    rw [List.cons_append, shortTypeFrom, shortTypeFrom]
    split
    · exact ih
    · split
      · rw [ih, List.append_assoc, List.cons_append]
      · exact ih

/-- The segment that was read so far stands in front of a piece, up to the dot that discards it. -/
theorem shortTypeFrom_piece (hp : IsTypePiece p) (hs : '.' ∉ segment) :
    shortTypeFrom segment p = Text.afterLast '.' (segment.reverse ++ p) := by
  induction p generalizing segment with
  | nil => rw [shortTypeFrom, List.append_nil, Text.afterLast_of_notMem (by simpa using hs)]
  | cons c p ih =>
    obtain ⟨hc, hp⟩ := List.forall_mem_cons.1 hp
    rw [shortTypeFrom]
    split
    · rename_i hdot
      rw [ih hp List.not_mem_nil, hdot, Text.afterLast_append_cons]
      rfl
    · rename_i hdot
      have hs : '.' ∉ c :: segment := List.not_mem_cons_of_ne_of_not_mem (Ne.symm hdot) hs
      rw [if_neg (mt isTypeDelimiter_iff.1 hc), ih hp hs, List.reverse_cons, List.append_assoc,
        List.singleton_append]

theorem shortType_append (hd : d ∈ typeDelimiters) (a b : Text) :
    shortType (a ++ d :: b) = shortType a ++ d :: shortType b :=
  shortTypeFrom_append hd

@[simp] theorem shortType_piece (p : TypePiece) : shortType p.1 = p.name.1 :=
  shortTypeFrom_piece p.2 List.not_mem_nil

namespace TypeParts

@[simp] theorem shortType_print (w : TypeParts) : shortType w.print = w.names.print := by
  induction w with
  | last p => exact shortType_piece p
  | cons p d rest ih => simp [print, names, shortType_append d.2, ih]

theorem exists_print (s : Text) : ∃ w : TypeParts, w.print = s := by
  induction s with
  | nil => exact ⟨last ⟨[], nofun⟩, rfl⟩
  | cons c s ih =>
    obtain ⟨w, rfl⟩ := ih
    by_cases hc : c ∈ typeDelimiters
    · exact ⟨cons ⟨[], nofun⟩ ⟨c, hc⟩ w, rfl⟩
    · cases w with
      | last p => exact ⟨last ⟨c :: p.1, List.forall_mem_cons.2 ⟨hc, p.2⟩⟩, rfl⟩
      | cons p d rest => exact ⟨cons ⟨c :: p.1, List.forall_mem_cons.2 ⟨hc, p.2⟩⟩ d rest, rfl⟩

theorem append_delimiter_inj {p q : TypePiece} {d e : TypeDelimiter} {s t : Text}
    (h : p.1 ++ d.1 :: s = q.1 ++ e.1 :: t) : p = q ∧ d = e ∧ s = t := by
  have hpiece (p : TypePiece) (d : TypeDelimiter) (s : Text) :
      (p.1 ++ d.1 :: s).takeWhile (· ∉ typeDelimiters) = p.1 :=
    Text.takeWhile_append (fun c hc => by simp [p.2 c hc]) (.cons (by simp [d.2]) s)
  have hpq : p = q := by
    apply Subtype.ext
    rw [← hpiece p d s, h, hpiece]
  subst hpq
  obtain ⟨hd, hs⟩ := List.cons.inj (List.append_cancel_left h)
  exact ⟨rfl, Subtype.ext hd, hs⟩

theorem piece_ne_append_delimiter (p q : TypePiece) (d : TypeDelimiter) (s : Text) :
    p.1 ≠ q.1 ++ d.1 :: s := by
  intro h
  exact p.2 d.1 (h ▸ List.mem_append_right q.1 List.mem_cons_self) d.2

theorem print_injective : Function.Injective print := by
  intro w
  induction w with
  | last p =>
    intro v h
    cases v with
    | last q => rw [Subtype.ext h]
    | cons q e v => exact absurd h (piece_ne_append_delimiter p q e v.print)
  | cons p d w ih =>
    intro v h
    cases v with
    | last q => exact absurd h.symm (piece_ne_append_delimiter q p d w.print)
    | cons q e v =>
      obtain ⟨rfl, rfl, hprint⟩ := append_delimiter_inj h
      rw [ih hprint]

@[simp] theorem dot_notMem_print_names (w : TypeParts) : '.' ∉ w.names.print := by
  induction w with
  | last p => exact Text.notMem_afterLast '.' p.1
  | cons p d rest ih =>
    rw [names, print, List.mem_append, List.mem_cons]
    rintro (hm | hm | hm)
    · exact Text.notMem_afterLast '.' p.1 hm
    · exact ne_dot_of_mem_typeDelimiters d.2 hm.symm
    · exact ih hm

theorem names_of_notMem {w : TypeParts} (h : '.' ∉ w.print) : w.names = w := by
  induction w with
  | last p => rw [names, TypePiece.name_of_notMem h]
  | cons p d rest ih =>
    rw [print, List.mem_append, List.mem_cons, not_or, not_or] at h
    rw [names, TypePiece.name_of_notMem h.1, ih h.2.2]

end TypeParts

@[simp] theorem dot_notMem_shortType (s : Text) : '.' ∉ shortType s := by
  obtain ⟨w, rfl⟩ := TypeParts.exists_print s
  simp

theorem shortType_of_notMem (h : '.' ∉ s) : shortType s = s := by
  obtain ⟨w, rfl⟩ := TypeParts.exists_print s
  simp [TypeParts.names_of_notMem h]

/-- Every text is a type in one way, and its short form has the names of its pieces between the same
delimiters. So it has no dots, dots are all that it drops, and it can be taken on both sides of a
delimiter. -/
theorem shortType_piecewise (s : Text) :
    (∃! w : TypeParts, w.print = s) ∧
      (∀ w : TypeParts, w.print = s → shortType s = w.names.print) ∧
      '.' ∉ shortType s ∧ ('.' ∉ s → shortType s = s) ∧
      shortType (shortType s) = shortType s ∧
      ∀ (a b : Text) (d : Char), d ∈ typeDelimiters → s = a ++ d :: b →
        shortType s = shortType a ++ d :: shortType b := by
  refine ⟨?_, ?_, dot_notMem_shortType s, shortType_of_notMem,
    shortType_of_notMem (dot_notMem_shortType s), ?_⟩
  · obtain ⟨w, hw⟩ := TypeParts.exists_print s
    exact ⟨w, hw, fun v hv => TypeParts.print_injective (hv.trans hw.symm)⟩
  · rintro w rfl
    exact w.shortType_print
  · rintro a b d hd rfl
    exact shortType_append hd a b

/-- A generic type with an array among its arguments, a piece that is only a dot, and a name behind
the closing bracket. -/
theorem shortType_piecewise_of_nested :
    let w : TypeParts :=
      .cons ⟨"System.Map".toList, by decide⟩ ⟨'{', by decide⟩ <|
      .cons ⟨"N.Key".toList, by decide⟩ ⟨',', by decide⟩ <|
      .cons ⟨".".toList, by decide⟩ ⟨',', by decide⟩ <|
      .cons ⟨"N.O.Item".toList, by decide⟩ ⟨'[', by decide⟩ <|
      .cons ⟨[], by decide⟩ ⟨']', by decide⟩ <|
      .cons ⟨[], by decide⟩ ⟨'}', by decide⟩ <|
      .last ⟨".Of".toList, by decide⟩
    let s : Text := "System.Map\x7bN.Key,.,N.O.Item[]\x7d.Of".toList
    let short : Text := "Map\x7bKey,,Item[]\x7dOf".toList
    let a : Text := "System.Map\x7bN.Key".toList
    let b : Text := ".,N.O.Item[]\x7d.Of".toList
    w.print = s ∧ shortType s = short ∧ '.' ∉ short ∧ shortType short = short ∧
      s = a ++ ',' :: b ∧ short = shortType a ++ ',' :: shortType b := by
  intro w s short a b
  have hw : w.print = s := by decide +kernel
  have hnames : w.names.print = short := by decide +kernel
  have hdot : '.' ∉ short := by decide +kernel
  have hs : s = a ++ ',' :: b := by decide +kernel
  obtain ⟨-, hprint, -, -, -, happend⟩ := shortType_piecewise s
  obtain ⟨-, -, -, hself, -⟩ := shortType_piecewise short
  have hshort : shortType s = short := (hprint w hw).trans hnames
  exact ⟨hw, hshort, hdot, hself hdot, hs, hshort ▸ happend a b ',' (by decide) hs⟩

end Page

end ApiBook
