import ApiBook.Text.Blank
import ApiBook.Text.Number

/-! # TOML strings

The four kinds of strings: basic and literal ones, each on one line or over several. Readers take
the text behind the opening quotes and give the value and the text behind the closing ones.
-/

namespace ApiBook.Toml

/-- Control characters other than the tab may not stand in strings and comments. -/
def isPlain (c : Char) : Bool := c == '\t' || (32 ≤ c.toNat && c.toNat != 127)

def escape? : Char → Option Char
  | 'b' => some (Char.ofNat 8)
  | 't' => some '\t'
  | 'n' => some '\n'
  | 'f' => some (Char.ofNat 12)
  | 'r' => some '\r'
  | '"' => some '"'
  | '\\' => some '\\'
  | _ => none

def hexEscape? (digits : Text) : Option Char :=
  if digits.all Text.isHexDigit then Text.scalar? (Text.numberOf 16 digits) else none

def escapeSequence? : Text → Option (Char × Text)
  | 'u' :: s =>
    if 4 ≤ s.length then (hexEscape? (s.take 4)).map fun c => (c, s.drop 4) else none
  | 'U' :: s =>
    if 8 ≤ s.length then (hexEscape? (s.take 8)).map fun c => (c, s.drop 8) else none
  | c :: s => (escape? c).map fun d => (d, s)
  | [] => none

theorem escapeSequence?_length_lt {s r : Text} {c : Char} (h : escapeSequence? s = some (c, r)) :
    r.length < s.length := by
  unfold escapeSequence? at h
  split at h
  · split at h
    · simp only [Option.map_eq_some_iff, Prod.mk.injEq] at h
      obtain ⟨_, _, _, rfl⟩ := h
      simp only [List.length_drop, List.length_cons]
      omega
    · simp at h
  · split at h
    · simp only [Option.map_eq_some_iff, Prod.mk.injEq] at h
      obtain ⟨_, _, _, rfl⟩ := h
      simp only [List.length_drop, List.length_cons]
      omega
    · simp at h
  · simp only [Option.map_eq_some_iff, Prod.mk.injEq] at h
    obtain ⟨_, _, _, rfl⟩ := h
    simp
  · simp at h

def withChar (c : Char) (r : Option (Text × Text)) : Option (Text × Text) :=
  r.map fun (value, rest) => (c :: value, rest)

def basic? : Text → Option (Text × Text)
  | [] => none
  | '"' :: s => some ([], s)
  | '\\' :: s =>
    match h : escapeSequence? s with
    | none => none
    | some (c, rest) =>
      have := escapeSequence?_length_lt h
      withChar c (basic? rest)
  | c :: s => if isPlain c then withChar c (basic? s) else none
termination_by s => s.length

def literal? : Text → Option (Text × Text)
  | [] => none
  | '\'' :: s => some ([], s)
  | c :: s => if isPlain c then withChar c (literal? s) else none

/-- The text behind a line feed, which may follow a carriage return. -/
def newLine? : Text → Option Text
  | '\n' :: s => some s
  | '\r' :: '\n' :: s => some s
  | _ => none

theorem newLine?_length_lt {s r : Text} (h : newLine? s = some r) : r.length < s.length := by
  unfold newLine? at h
  split at h
  · obtain rfl := Option.some.inj h
    simp
  · obtain rfl := Option.some.inj h
    simp only [List.length_cons]
    omega
  · simp at h

def skipSpace : Text → Text
  | ' ' :: s => skipSpace s
  | '\t' :: s => skipSpace s
  | '\n' :: s => skipSpace s
  | '\r' :: '\n' :: s => skipSpace s
  | s => s

theorem skipSpace_length_le (s : Text) : (skipSpace s).length ≤ s.length := by
  fun_induction skipSpace s <;> simp_all <;> omega

/-- The text behind a backslash at the end of a line, if that is where it stands. -/
def lineContinuation? (s : Text) : Option Text :=
  (newLine? (Text.dropBlanks s)).map skipSpace

theorem lineContinuation?_length_lt {s r : Text} (h : lineContinuation? s = some r) :
    r.length < s.length := by
  simp only [lineContinuation?, Option.map_eq_some_iff] at h
  obtain ⟨t, ht, rfl⟩ := h
  have h₁ := newLine?_length_lt ht
  have h₂ : (Text.dropBlanks s).length ≤ s.length := (List.dropWhile_suffix _).length_le
  have h₃ := skipSpace_length_le t
  omega

/-- The closing of a string over several lines: three quotes, or up to five, of which the first ones
belong to the value. -/
def closing? (q : Char) : Text → Option (Text × Text)
  | a :: b :: c :: s =>
    if a = q ∧ b = q ∧ c = q then
      match s with
      | d :: e :: r => if d = q ∧ e = q then some ([q, q], r)
        else if d = q then some ([q], e :: r) else some ([], s)
      | [d] => if d = q then some ([q], []) else some ([], s)
      | [] => some ([], [])
    else none
  | _ => none

/-- A basic string over several lines, behind its quotes and the line feed after them. -/
def longBasic? (s : Text) : Option (Text × Text) :=
  match closing? '"' s with
  | some r => some r
  | none =>
    match s with
    | [] => none
    | '\\' :: s =>
      match h : lineContinuation? s with
      | some rest =>
        have := lineContinuation?_length_lt h
        longBasic? rest
      | none =>
        match h : escapeSequence? s with
        | none => none
        | some (c, rest) =>
          have := escapeSequence?_length_lt h
          withChar c (longBasic? rest)
    | '\n' :: s => withChar '\n' (longBasic? s)
    | '\r' :: '\n' :: s => withChar '\n' (longBasic? s)
    | c :: s => if isPlain c then withChar c (longBasic? s) else none
termination_by s.length

def longLiteral? (s : Text) : Option (Text × Text) :=
  match closing? '\'' s with
  | some r => some r
  | none =>
    match s with
    | [] => none
    | '\n' :: s => withChar '\n' (longLiteral? s)
    | '\r' :: '\n' :: s => withChar '\n' (longLiteral? s)
    | c :: s => if isPlain c then withChar c (longLiteral? s) else none
termination_by s.length

/-- The line feed behind opening quotes is not part of the value. -/
def dropNewLine (s : Text) : Text := (newLine? s).getD s

def string? (s : Text) : Option (Text × Text) :=
  match s with
  | '"' :: '"' :: '"' :: s => longBasic? (dropNewLine s)
  | '\'' :: '\'' :: '\'' :: s => longLiteral? (dropNewLine s)
  | '"' :: s => basic? s
  | '\'' :: s => literal? s
  | _ => none

end ApiBook.Toml
