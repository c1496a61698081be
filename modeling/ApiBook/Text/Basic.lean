/-! # Texts

A text is a list of characters. String literals stand for texts, texts are ordered by code point,
and they are cut at characters, at fixed sequences and at line ends.
-/

namespace ApiBook

/-- Text as the readers and printers of this library handle it. -/
abbrev Text := List Char

instance : Coe String Text := ⟨String.toList⟩

namespace Text

/-- The order of texts by the code points of their characters. -/
def le (s t : Text) : Bool := !decide (t < s)

theorem le_iff {s t : Text} : le s t = true ↔ ¬ t < s := by
  rw [le, Bool.not_eq_true', decide_eq_false_iff_not]

theorem le_trans {r s t : Text} (h : le r s = true) (h' : le s t = true) : le r t = true := by
  rw [le_iff, List.not_lt] at h h' ⊢
  exact List.le_trans h h'

theorem le_total (s t : Text) : (le s t || le t s) = true := by
  rw [Bool.or_eq_true, le_iff, le_iff]
  exact (List.le_total s t).imp List.not_lt.2 List.not_lt.2

theorem lt_of_not_lt {s t : Text} (h : ¬ s < t) (hne : t ≠ s) : t < s :=
  (List.le_iff_lt_or_eq.1 (List.not_lt.1 h)).resolve_right hne

def after? : Text → Text → Option Text
  | [], s => some s
  | _ :: _, [] => none
  | p :: ps, c :: cs => if p = c then after? ps cs else none

@[simp] theorem after?_eq_some_iff {p s r : Text} : after? p s = some r ↔ s = p ++ r := by
  induction p generalizing s with
  | nil => simp [after?]
  | cons a p ih =>
    cases s with
    | nil => simp [after?]
    | cons c s => by_cases h : a = c <;> simp [after?, h, ih, eq_comm]

theorem length_after? {p s r : Text} (h : after? p s = some r) :
    s.length = p.length + r.length := by
  rw [after?_eq_some_iff.1 h, List.length_append]

/-- The text without the longest ending whose characters all satisfy `p`. -/
def dropEndWhile (p : Char → Bool) : Text → Text
  | [] => []
  | c :: cs =>
    match dropEndWhile p cs with
    | [] => if p c then [] else [c]
    | d :: ds => c :: d :: ds

def cut? (c : Char) (s : Text) : Option (Text × Text) :=
  match s.dropWhile (· != c) with
  | [] => none
  | _ :: rest => some (s.takeWhile (· != c), rest)

def cutLast? (c : Char) : Text → Option (Text × Text)
  | [] => none
  | d :: ds =>
    match cutLast? c ds with
    | some (a, b) => some (d :: a, b)
    | none => if d = c then some ([], ds) else none

theorem cut?_eq_some {c : Char} {s a b : Text} (h : cut? c s = some (a, b)) :
    s = a ++ c :: b ∧ c ∉ a := by
  unfold cut? at h
  split at h
  · simp at h
  · rename_i d rest hd
    simp only [Option.some.injEq, Prod.mk.injEq] at h
    obtain ⟨rfl, rfl⟩ := h
    have hc : d = c := by
      have := List.head?_dropWhile_not (· != c) s
      simpa [hd] using this
    refine ⟨?_, fun hm => ?_⟩
    · rw [← hc, ← hd, hc, List.takeWhile_append_dropWhile]
    · simpa using List.all_eq_true.1 List.all_takeWhile c hm

theorem bne_of_notMem {c : Char} {s : Text} (h : c ∉ s) : ∀ d ∈ s, (d != c) = true := by
  intro d hd
  rw [bne_iff_ne]
  rintro rfl
  exact h hd

theorem cut?_append {c : Char} {a b : Text} (h : c ∉ a) : cut? c (a ++ c :: b) = some (a, b) := by
  have ha := bne_of_notMem h
  rw [cut?, List.dropWhile_append_of_pos ha, List.takeWhile_append_of_pos ha]
  simp

theorem cut?_of_notMem {c : Char} {s : Text} (h : c ∉ s) : cut? c s = none := by
  have hdrop : (s ++ []).dropWhile (· != c) = [].dropWhile (· != c) :=
    List.dropWhile_append_of_pos (bne_of_notMem h)
  rw [List.append_nil] at hdrop
  rw [cut?, hdrop]
  rfl

theorem cutLast?_eq_none {c : Char} {s : Text} (h : cutLast? c s = none) : c ∉ s := by
  induction s with
  | nil => exact List.not_mem_nil
  | cons d ds ih =>
    rw [cutLast?] at h
    split at h
    · simp at h
    · rename_i hd
      split at h
      · simp at h
      · rename_i hne
        simp [Ne.symm hne, ih hd]

theorem cutLast?_eq_some {c : Char} {s a b : Text} (h : cutLast? c s = some (a, b)) :
    s = a ++ c :: b ∧ c ∉ b := by
  induction s generalizing a with
  | nil => simp [cutLast?] at h
  | cons d ds ih =>
    rw [cutLast?] at h
    split at h
    · rename_i a' b' hd
      simp only [Option.some.injEq, Prod.mk.injEq] at h
      obtain ⟨rfl, rfl⟩ := h
      exact ⟨congrArg (d :: ·) (ih hd).1, (ih hd).2⟩
    · rename_i hd
      split at h
      · rename_i hc
        simp only [Option.some.injEq, Prod.mk.injEq] at h
        obtain ⟨rfl, rfl⟩ := h
        exact ⟨by simp [hc], cutLast?_eq_none hd⟩
      · simp at h

/-- The text up to the first `c`, all of it when there is none. -/
def upTo (c : Char) (s : Text) : Text := s.takeWhile (· != c)

/-- What follows the last `c`, all of the text when there is none. -/
def afterLast (c : Char) (s : Text) : Text :=
  match cutLast? c s with
  | some (_, b) => b
  | none => s

def around? (p : Text) : Text → Option (Text × Text)
  | [] => if p = [] then some ([], []) else none
  | c :: cs =>
    match after? p (c :: cs) with
    | some r => some ([], r)
    | none => (around? p cs).map fun (a, b) => (c :: a, b)

theorem around?_eq_some {p s a b : Text} (h : around? p s = some (a, b)) : s = a ++ p ++ b := by
  induction s generalizing a with
  | nil =>
    rw [around?] at h
    split at h
    · rename_i hp
      cases h
      simp [hp]
    · exact nomatch h
  | cons c s ih =>
    rw [around?] at h
    split at h
    · rename_i r hr
      cases h
      exact after?_eq_some_iff.1 hr
    · simp only [Option.map_eq_some_iff, Prod.mk.injEq] at h
      obtain ⟨⟨a, b⟩, h, rfl, rfl⟩ := h
      rw [ih h]
      simp

@[simp] theorem around?_eq_none_iff {p s : Text} : around? p s = none ↔ ¬ p <:+: s := by
  induction s with
  | nil => simp [around?]
  | cons c cs ih =>
    rw [around?, List.infix_cons_iff]
    cases ha : after? p (c :: cs) with
    | some r =>
      have hp : p <+: c :: cs := ⟨r, (after?_eq_some_iff.1 ha).symm⟩
      simp [hp]
    | none =>
      have hp : ¬ p <+: c :: cs := by
        rintro ⟨r, hr⟩
        rw [after?_eq_some_iff.2 hr.symm] at ha
        exact Option.some_ne_none r ha
      simp [hp, ih]

def consHead (c : Char) : List Text → List Text
  | [] => [[c]]
  | t :: ts => (c :: t) :: ts

/-- The pieces between the characters that satisfy `p`, empty ones included. -/
def fields (p : Char → Bool) : Text → List Text
  | [] => [[]]
  | c :: cs => if p c then [] :: fields p cs else consHead c (fields p cs)

/-- The pieces between pairs of line feeds, found from the left. -/
def paragraphs : Text → List Text
  | [] => [[]]
  | '\n' :: '\n' :: cs => [] :: paragraphs cs
  | c :: cs => consHead c (paragraphs cs)

/-- The lines of a text. A line ends with a line feed, which may follow a carriage return; nothing
stands after the last line feed when the text ends there. -/
def lines : Text → List Text
  | [] => []
  | '\n' :: cs => [] :: lines cs
  | '\r' :: '\n' :: cs => [] :: lines cs
  | c :: cs => consHead c (lines cs)

/-- Replaces from left to right whatever `step` recognises. `step` gives the replacement and the
text left to read; it is not asked again about a text that it did not shorten. -/
def substitute (step : Text → Option (Text × Text)) : Text → Text
  | [] => []
  | c :: cs =>
    match step (c :: cs) with
    | none => c :: substitute step cs
    | some (out, rest) =>
      if rest.length ≤ cs.length then out ++ substitute step rest else c :: substitute step cs
termination_by s => s.length

/-- Collects from left to right whatever `step` recognises, skipping the characters between. -/
def collect {α : Type} (step : Text → Option (α × Text)) : Text → List α
  | [] => []
  | c :: cs =>
    match step (c :: cs) with
    | none => collect step cs
    | some (a, rest) => if rest.length ≤ cs.length then a :: collect step rest else collect step cs
termination_by s => s.length

def replace (p q : Text) (s : Text) : Text :=
  substitute (fun t => (after? p t).map fun r => (q, r)) s

end Text

end ApiBook
