import ApiBook.Proofs.Script.Block
import Mathlib.Data.List.DropRight
import Mathlib.Logic.Function.Iterate

/-! # Blocks in front of lines of code

A cursor starts afresh behind every block. It finds what one reading of the whole script finds: for
each line of code, the comment run directly in front of it.
-/

namespace ApiBook.Script

namespace Line

/-- What a line adds to a block. A blank line adds an empty text. -/
def text : Line → Text
  | comment t => t
  | blank => []
  | code => []

def isCode : Line → Bool
  | code => true
  | _ => false

def isComment : Line → Bool
  | comment _ => true
  | _ => false

end Line

/-- The class of each line of a script, read from the first line to the last. -/
def classes (inside : Bool) : List Text → List Line
  | [] => []
  | raw :: rest => (classify inside raw).1 :: classes (classify inside raw).2 rest

def openBehind (inside : Bool) (lines : List Text) : Bool :=
  lines.foldl (fun inside raw => (classify inside raw).2) inside

def lastRun (ls : List Line) : List Line := ls.rtakeWhile fun l => !l.isCode

/-- A run from its first comment that is not empty. -/
def worded (run : List Line) : List Line := run.dropWhile fun l => l.text = []

/-- The block that the line of code at an index completes: the run in front of it, unless that has
no words or ends with a blank line. -/
def blockAt? (lines : List Text) (i : Nat) : Option Block :=
  let ls := classes false lines
  let run := worded (lastRun (ls.take i))
  if ls[i]? = some .code ∧ run.getLast?.any Line.isComment then
    some ⟨(run.map Line.text).rdropWhile (· = []), Text.trim (lines.getD i []), i + 1⟩
  else none

def Cursor.advance (c : Cursor) : Cursor :=
  match c.next? with
  | some (_, c') => c'
  | none => ⟨c.number + c.ahead.length, []⟩

variable {inside b : Bool} {raw t : Text} {l : Line} {ls : List Line} {lines rest : List Text}
  {r : Run} {n : Nat}

section Classes

/-- A block comment is open only around comment text. -/
theorem classify_of_not_comment (h : classify inside raw = (l, b)) (hl : l.isComment = false) :
    inside = false ∧ b = false := by
  simp only [classify] at h
  split at h
  · obtain ⟨rfl, -⟩ := Prod.mk.inj h
    exact Bool.noConfusion hl
  · rename_i hi
    refine ⟨Bool.eq_false_iff.2 hi, ?_⟩
    split at h
    · exact (Prod.mk.inj h).2.symm
    · split at h
      · exact (Prod.mk.inj h).2.symm
      · split at h
        · obtain ⟨rfl, -⟩ := Prod.mk.inj h
          exact Bool.noConfusion hl
        · exact (Prod.mk.inj h).2.symm

@[simp] theorem classes_append (inside : Bool) (lines rest : List Text) :
    classes inside (lines ++ rest) =
      classes inside lines ++ classes (openBehind inside lines) rest := by
  induction lines generalizing inside with
  | nil => rfl
  | cons raw lines ih => exact congrArg (_ :: ·) (ih _)

@[simp] theorem length_classes (inside : Bool) (lines : List Text) :
    (classes inside lines).length = lines.length := by
  induction lines generalizing inside with
  | nil => rfl
  | cons raw lines ih => exact congrArg (· + 1) (ih _)

@[simp] theorem openBehind_concat (inside : Bool) (lines : List Text) (raw : Text) :
    openBehind inside (lines ++ [raw]) = (classify (openBehind inside lines) raw).2 := by
  simp [openBehind]

@[simp] theorem lastRun_concat_code (ls : List Line) : lastRun (ls ++ [.code]) = [] :=
  List.rtakeWhile_concat_neg _ _ _ (by simp [Line.isCode])

theorem lastRun_concat (h : l.isCode = false) : lastRun (ls ++ [l]) = lastRun ls ++ [l] :=
  List.rtakeWhile_concat_pos _ _ _ (by simp [h])

theorem worded_concat (run : List Line) (l : Line) : worded (run ++ [l]) =
    if worded run = [] then (if l.text = [] then [] else [l]) else worded run ++ [l] := by
  simp only [worded, List.dropWhile_append, List.isEmpty_iff]
  congr 1
  by_cases h : l.text = [] <;> simp [h]

end Classes

namespace Run

/-- What a run keeps of the lines behind the last line of code. -/
structure Keeps (r : Run) (ls : List Line) : Prop where
  texts_append : r.texts ++ List.replicate r.blanks [] = (worded ls).map Line.text
  blanks_eq_zero : r.texts = [] → r.blanks = 0
  comment_last : r.texts ≠ [] → (r.blanks = 0 ↔ (worded ls).getLast?.any Line.isComment)

namespace Keeps

theorem empty : Keeps {} [] where
  texts_append := rfl
  blanks_eq_zero _ := rfl
  comment_last h := absurd rfl h

theorem worded_eq_nil_iff (h : r.Keeps ls) : worded ls = [] ↔ r.texts = [] := by
  rw [← List.map_eq_nil_iff (f := Line.text), ← h.texts_append, List.append_eq_nil_iff]
  refine ⟨And.left, fun ht => ⟨ht, ?_⟩⟩
  rw [h.blanks_eq_zero ht, List.replicate_zero]

theorem comment_eq (h : r.Keeps ls) (t : Text) (b : Bool) : r.comment t b =
    { texts := if t = [] ∧ worded ls = [] then [] else (worded ls).map Line.text ++ [t],
      inside := b } := by
  have ht : (if r.texts = [] then [] else r.texts ++ List.replicate r.blanks []) =
      (worded ls).map Line.text := by
    split
    · rename_i hr
      rw [h.worded_eq_nil_iff.2 hr, List.map_nil]
    · exact h.texts_append
  simp only [Run.comment, ht, List.map_eq_nil_iff]

theorem comment (h : r.Keeps ls) (t : Text) (b : Bool) :
    (r.comment t b).Keeps (ls ++ [.comment t]) := by
  rw [h.comment_eq]
  by_cases hc : t = [] ∧ worded ls = []
  · have hn : worded (ls ++ [.comment t]) = [] := by
      rw [worded_concat, if_pos hc.2]
      exact if_pos hc.1
    rw [if_pos hc]
    exact ⟨by rw [hn]; rfl, fun _ => rfl, fun hne => absurd rfl hne⟩
  · have hn : worded (ls ++ [.comment t]) = worded ls ++ [.comment t] := by
      rw [worded_concat]
      split
      · rename_i hw
        rw [hw]
        exact if_neg fun ht => hc ⟨ht, hw⟩
      · rfl
    rw [if_neg hc]
    exact ⟨by simp [hn, Line.text], fun _ => rfl, fun _ => by simp [hn, Line.isComment]⟩

theorem blank (h : r.Keeps ls) : r.blank.Keeps (ls ++ [.blank]) := by
  unfold Run.blank
  split
  · rename_i hr
    have hn : worded (ls ++ [.blank]) = worded ls := by
      rw [worded_concat, if_pos (h.worded_eq_nil_iff.2 hr), h.worded_eq_nil_iff.2 hr]
      rfl
    exact ⟨hn ▸ h.texts_append, h.blanks_eq_zero, fun hne => absurd hr hne⟩
  · rename_i hr
    have hn : worded (ls ++ [.blank]) = worded ls ++ [.blank] := by
      rw [worded_concat, if_neg (mt h.worded_eq_nil_iff.1 hr)]
    refine ⟨?_, fun ht => absurd ht hr, fun _ => ?_⟩
    · simp [hn, ← h.texts_append, List.replicate_succ', Line.text]
    · simp [hn, Line.isComment]

theorem attached?_eq (h : r.Keeps ls) : r.attached? =
    if (worded ls).getLast?.any Line.isComment then
      some (((worded ls).map Line.text).rdropWhile (· = []))
    else none := by
  unfold attached?
  by_cases hr : r.texts = []
  · rw [if_pos (.inl hr), h.worded_eq_nil_iff.2 hr]
    rfl
  · by_cases hb : r.blanks = 0
    · have ht : (worded ls).map Line.text = r.texts := by
        rw [← h.texts_append, hb, List.replicate_zero, List.append_nil]
      rw [if_neg (not_or.2 ⟨hr, not_not.2 hb⟩), if_pos ((h.comment_last hr).1 hb), ht]
      rfl
    · rw [if_pos (.inr hb), if_neg (mt (h.comment_last hr).2 hb)]

end Keeps

@[simp] theorem blank_inside (r : Run) : r.blank.inside = r.inside := by
  unfold blank
  split <;> rfl

/-- The blocks that a run finds from the line of a number on. -/
def blocks (r : Run) (n : Nat) (lines : List Text) : List Block :=
  match r.next? n lines with
  | none => []
  | some (b, c) => b :: c.blocks

theorem blocks_of_comment (h : classify r.inside raw = (.comment t, b)) :
    r.blocks n (raw :: rest) = (r.comment t b).blocks (n + 1) rest := by
  rw [blocks, next?_of_comment h]
  rfl

theorem blocks_of_blank (h : classify r.inside raw = (.blank, b)) :
    r.blocks n (raw :: rest) = r.blank.blocks (n + 1) rest := by
  simp only [blocks, next?, h]

end Run

theorem Cursor.blocks_eq (c : Cursor) : c.blocks = Run.blocks {} c.number c.ahead := by
  unfold Run.blocks
  rcases hn : c.next? with - | ⟨b, c'⟩
  · rw [blocks_of_none hn]
    rw [next?] at hn
    rw [hn]
  · rw [blocks_of_some hn]
    rw [next?] at hn
    rw [hn]

theorem Run.blocks_of_code (h : classify r.inside raw = (.code, b)) : r.blocks n (raw :: rest) =
    ((r.attached?.map fun ls => (⟨ls, Text.trim raw, n + 1⟩ : Block)).toList ++
      Run.blocks {} (n + 1) rest) := by
  rcases ha : r.attached? with - | ls
  · simp only [blocks, next?, h, ha]
    rfl
  · rw [blocks, next?_of_code h ha]
    exact congrArg (_ :: ·) (Cursor.blocks_eq _)

theorem blockAt?_append (lines : List Text) (raw : Text) (rest : List Text) :
    blockAt? (lines ++ raw :: rest) lines.length =
      let run := worded (lastRun (classes false lines))
      if (classify (openBehind false lines) raw).1 = .code ∧ run.getLast?.any Line.isComment then
        some ⟨(run.map Line.text).rdropWhile (· = []), Text.trim raw, lines.length + 1⟩
      else none := by
  have ht : (classes false (lines ++ raw :: rest)).take lines.length = classes false lines := by
    simp [List.take_left']
  have hg : (classes false (lines ++ raw :: rest))[lines.length]? =
      some (classify (openBehind false lines) raw).1 := by
    rw [classes_append, List.getElem?_append_right (length_classes _ _).le, length_classes,
      Nat.sub_self]
    rfl
  have hd : (lines ++ raw :: rest).getD lines.length [] = raw := by simp
  simp only [blockAt?, ht, hg, hd, Option.some.injEq]

/-- From any line on, a run that keeps the lines before it finds the blocks of the lines of code. -/
theorem Run.blocks_eq_blockAt? (hk : r.Keeps (lastRun (classes false lines)))
    (hi : r.inside = openBehind false lines) (rest : List Text) :
    r.blocks lines.length rest =
      (List.range' lines.length rest.length).filterMap (blockAt? (lines ++ rest)) := by
  induction rest generalizing lines r with
  | nil => rfl
  | cons raw rest ih =>
    obtain ⟨⟨l, b⟩, hc⟩ : ∃ p, classify r.inside raw = p := ⟨_, rfl⟩
    have hc' : classify (openBehind false lines) raw = (l, b) := hi ▸ hc
    have hb : openBehind false (lines ++ [raw]) = b := by simp [hc']
    have hl : classes false (lines ++ [raw]) = classes false lines ++ [l] := by
      rw [classes_append]
      exact congrArg (fun p => classes false lines ++ [p.1]) hc'
    have happ : lines ++ raw :: rest = lines ++ [raw] ++ rest := by simp
    have hlen : lines.length + 1 = (lines ++ [raw]).length := by simp
    rw [List.length_cons, List.range'_succ, List.filterMap_cons, blockAt?_append, hc']
    cases l with
    | comment t =>
      rw [blocks_of_comment hc, happ, hlen]
      refine ih ?_ hb.symm
      rw [hl, lastRun_concat rfl]
      exact hk.comment t b
    | blank =>
      have hib := classify_of_not_comment hc rfl
      rw [blocks_of_blank hc, happ, hlen]
      refine ih ?_ ?_
      · rw [hl, lastRun_concat rfl]
        exact hk.blank
      · simp [hb, hib]
    | code =>
      have hib := classify_of_not_comment hc rfl
      have hlast : Run.Keeps {} (lastRun (classes false (lines ++ [raw]))) := by
        rw [hl, lastRun_concat_code]
        exact .empty
      have hrest := ih hlast (hb.trans hib.2).symm
      rw [blocks_of_code hc, hk.attached?_eq, happ, hlen, hrest]
      by_cases hw : (worded (lastRun (classes false lines))).getLast?.any Line.isComment <;>
        simp [hw]

namespace Cursor

@[simp] theorem next?_map_fst (c : Cursor) : c.next?.map Prod.fst = c.blocks.head? := by
  rcases hn : c.next? with - | ⟨b, c'⟩
  · rw [blocks_of_none hn]
    rfl
  · rw [blocks_of_some hn]
    rfl

@[simp] theorem blocks_advance (c : Cursor) : c.advance.blocks = c.blocks.tail := by
  unfold advance
  rcases hn : c.next? with - | ⟨b, c'⟩
  · rw [blocks_of_none hn]
    exact blocks_of_none rfl
  · rw [blocks_of_some hn]
    rfl

@[simp] theorem blocks_iterate_advance (k : Nat) (c : Cursor) :
    (advance^[k] c).blocks = c.blocks.drop k := by
  induction k generalizing c with
  | zero => rfl
  | succ k ih => simp [ih]

end Cursor

/-- The blocks of a script are those of its lines of code, in order. After any number of calls a
cursor has found as many of them, and the next call gives the first of the others. -/
theorem blocks_eq_filterMap_blockAt? (lines : List Text) :
    blocks lines = (List.range lines.length).filterMap (blockAt? lines) ∧
      ∀ k : Nat,
        (Cursor.advance^[k] { ahead := lines }).blocks = (blocks lines).drop k ∧
        (Cursor.advance^[k] { ahead := lines }).next?.map Prod.fst = (blocks lines)[k]? := by
  constructor
  · rw [blocks, Cursor.blocks_eq, List.range_eq_range']
    have hi : Run.inside {} = openBehind false [] := rfl
    exact Run.blocks_eq_blockAt? .empty hi lines
  · intro k
    have hk := Cursor.blocks_iterate_advance k { ahead := lines }
    refine ⟨hk, ?_⟩
    rw [Cursor.next?_map_fst, hk]
    simp [blocks]

/-- Empty lines inside a block comment belong to it, and its last line has no text. -/
example : blockAt? ["f();", "/**", " * Opens.", "", " */", "", "// At once.", "g();"] 7 =
    some ⟨["Opens.", "", "", "", "At once."], "g();", 8⟩ := by decide +kernel

end ApiBook.Script
