import ApiBook.Json.Value
import ApiBook.Text.Number

/-! # Reading JSON

The grammar of JSON texts, less numbers and truth values, and a reader for it. White space may
stand around every token, and a string may be written with any of the escapes of the format. The
reader finds a value in a text exactly when the grammar derives it.
-/

namespace ApiBook.Json

open Text (after?)

def isSpace (c : Char) : Bool := c == ' ' || c == '\t' || c == '\n' || c == '\r'

def skip (s : Text) : Text := s.dropWhile isSpace

/-! ## Strings -/

def letter? : Char → Option Char
  | '"' => some '"'
  | '\\' => some '\\'
  | '/' => some '/'
  | 'b' => some (Char.ofNat 8)
  | 'f' => some (Char.ofNat 12)
  | 'n' => some '\n'
  | 'r' => some '\r'
  | 't' => some '\t'
  | _ => none

def codeUnit? : Text → Option (Nat × Text)
  | a :: b :: c :: d :: s =>
    if [a, b, c, d].all Text.isHexDigit then some (Text.numberOf 16 [a, b, c, d], s) else none
  | _ => none

def surrogates? (high low : Nat) : Option Char :=
  if 0xD800 ≤ high ∧ high < 0xDC00 ∧ 0xDC00 ≤ low ∧ low < 0xE000 then
    Text.scalar? (0x10000 + 0x400 * (high - 0xD800) + (low - 0xDC00))
  else none

/-- An escape behind its backslash: the character and the text behind the escape. A character
beyond four digits is written as two escapes. -/
def escape? : Text → Option (Char × Text)
  | 'u' :: s =>
    (codeUnit? s).bind fun (n, s) =>
      match Text.scalar? n, s with
      | some c, s => some (c, s)
      | none, '\\' :: 'u' :: s =>
        (codeUnit? s).bind fun (m, s) => (surrogates? n m).map fun c => (c, s)
      | none, _ => none
  | c :: s => (letter? c).map fun d => (d, s)
  | [] => none

/-- The text `s` starts with the characters that write `v` up to the closing quote, and `r` stands
behind it. -/
inductive Chars : Text → Text → Text → Prop
  | close {r : Text} : Chars ('"' :: r) [] r
  | escape {c : Char} {s t v r : Text} (he : escape? s = some (c, t)) (h : Chars t v r) :
      Chars ('\\' :: s) (c :: v) r
  | plain {c : Char} {s v r : Text} (hc : 32 ≤ c.toNat ∧ c ≠ '"' ∧ c ≠ '\\') (h : Chars s v r) :
      Chars (c :: s) (c :: v) r

theorem codeUnit?_length_lt {s r : Text} {n : Nat} (h : codeUnit? s = some (n, r)) :
    r.length < s.length := by
  unfold codeUnit? at h
  split at h
  · split at h
    · simp only [Option.some.injEq, Prod.mk.injEq] at h
      obtain ⟨_, rfl⟩ := h
      simp only [List.length_cons]
      omega
    · simp at h
  · simp at h

theorem escape?_length_lt {s r : Text} {c : Char} (h : escape? s = some (c, r)) :
    r.length < s.length := by
  unfold escape? at h
  split at h
  · rename_i s
    obtain ⟨⟨n, t⟩, hn, h⟩ := Option.bind_eq_some_iff.1 h
    have hlt := codeUnit?_length_lt hn
    simp only at h
    split at h
    · simp only [Option.some.injEq, Prod.mk.injEq] at h
      obtain ⟨_, rfl⟩ := h
      simp only [List.length_cons]
      omega
    · rename_i u _
      obtain ⟨⟨m, v⟩, hm, h⟩ := Option.bind_eq_some_iff.1 h
      have hlt' := codeUnit?_length_lt hm
      simp only [Option.map_eq_some_iff, Prod.mk.injEq] at h
      obtain ⟨_, _, _, rfl⟩ := h
      simp only [List.length_cons] at hlt ⊢
      omega
    · simp at h
  · simp only [Option.map_eq_some_iff, Prod.mk.injEq] at h
    obtain ⟨_, _, _, rfl⟩ := h
    simp
  · simp at h

def chars? : Text → Option (Text × Text)
  | [] => none
  | '"' :: s => some ([], s)
  | '\\' :: s =>
    match h : escape? s with
    | none => none
    | some (c, t) =>
      have := escape?_length_lt h
      (chars? t).map fun (v, r) => (c :: v, r)
  | c :: s => if 32 ≤ c.toNat then (chars? s).map fun (v, r) => (c :: v, r) else none
termination_by s => s.length

theorem Chars.of_chars? {s v r : Text} (h : chars? s = some (v, r)) : Chars s v r := by
  fun_induction chars? s generalizing v r with
  | case1 => simp at h
  | case2 s =>
    simp only [Option.some.injEq, Prod.mk.injEq] at h
    obtain ⟨rfl, rfl⟩ := h
    exact .close
  | case3 => simp at h
  | case4 s c t he _ ih =>
    simp only [Option.map_eq_some_iff, Prod.exists, Prod.mk.injEq] at h
    obtain ⟨v, r, h, rfl, rfl⟩ := h
    exact .escape he (ih h)
  | case5 s c hq hb hc ih =>
    simp only [Option.map_eq_some_iff, Prod.exists, Prod.mk.injEq] at h
    obtain ⟨v, r, h, rfl, rfl⟩ := h
    exact .plain ⟨hc, hq, hb⟩ (ih h)
  | case6 => simp at h

theorem Chars.chars?_eq {s v r : Text} (h : Chars s v r) : chars? s = some (v, r) := by
  induction h with
  | close => rw [chars?]
  | escape he _ ih =>
    rw [chars?]
    split
    · simp_all
    · simp_all
  | plain hc _ ih =>
    rw [chars?, if_pos hc.1, ih]
    · rfl
    · exact hc.2.1
    · exact hc.2.2

/-! ## Values -/

mutual

/-- The text `s` starts, behind white space, with a text of `j`, and `r` stands behind it. -/
inductive Value : Text → Json → Text → Prop
  | null {s r : Text} (h : skip s = "null" ++ r) : Value s null r
  | string {s t v r : Text} (h : skip s = '"' :: t) (hv : Chars t v r) : Value s (string v) r
  | emptyArray {s t r : Text} (h : skip s = '[' :: t) (he : skip t = ']' :: r) :
      Value s (array []) r
  | array {s t r : Text} {js : List Json} (h : skip s = '[' :: t) (hi : Items t js r) :
      Value s (array js) r
  | emptyObject {s t r : Text} (h : skip s = '{' :: t) (he : skip t = '}' :: r) :
      Value s (object []) r
  | object {s t r : Text} {fs : List (Text × Json)} (h : skip s = '{' :: t) (hf : Fields t fs r) :
      Value s (object fs) r

/-- One or more values between commas, up to the closing bracket. -/
inductive Items : Text → List Json → Text → Prop
  | last {s t r : Text} {j : Json} (hj : Value s j t) (h : skip t = ']' :: r) : Items s [j] r
  | more {s t u r : Text} {j : Json} {js : List Json} (hj : Value s j t) (h : skip t = ',' :: u)
      (hi : Items u js r) : Items s (j :: js) r

/-- One or more named values between commas, up to the closing brace. -/
inductive Fields : Text → List (Text × Json) → Text → Prop
  | last {s t u v k r w : Text} {j : Json} (hs : skip s = '"' :: t) (hk : Chars t k u)
      (hu : skip u = ':' :: v) (hj : Value v j w) (h : skip w = '}' :: r) : Fields s [(k, j)] r
  | more {s t u v k r w x : Text} {j : Json} {fs : List (Text × Json)} (hs : skip s = '"' :: t)
      (hk : Chars t k u) (hu : skip u = ':' :: v) (hj : Value v j w) (h : skip w = ',' :: x)
      (hf : Fields x fs r) : Fields s ((k, j) :: fs) r

end

/-- The text as a whole writes the value. -/
def Writes (s : Text) (j : Json) : Prop := ∃ r, Value s j r ∧ skip r = []

def WellFormed (s : Text) : Prop := ∃ j, Writes s j

mutual

/-- Reads a value behind white space. Every value takes a unit of fuel, as do the items of an array
and the fields of an object. -/
def value? : Nat → Text → Option (Json × Text)
  | 0, _ => none
  | fuel + 1, s =>
    match skip s with
    | '"' :: t => (chars? t).map fun (v, r) => (.string v, r)
    | '[' :: t =>
      match skip t with
      | ']' :: r => some (.array [], r)
      | _ => (items? fuel t).map fun (js, r) => (.array js, r)
    | '{' :: t =>
      match skip t with
      | '}' :: r => some (.object [], r)
      | _ => (fields? fuel t).map fun (fs, r) => (.object fs, r)
    | t => (after? "null" t).map fun r => (.null, r)

def items? : Nat → Text → Option (List Json × Text)
  | 0, _ => none
  | fuel + 1, s => do
    let (j, t) ← value? fuel s
    match skip t with
    | ']' :: r => some ([j], r)
    | ',' :: t => (items? fuel t).map fun (js, r) => (j :: js, r)
    | _ => none

def fields? : Nat → Text → Option (List (Text × Json) × Text)
  | 0, _ => none
  | fuel + 1, s => do
    let '"' :: t := skip s | none
    let (k, u) ← chars? t
    let ':' :: v := skip u | none
    let (j, w) ← value? fuel v
    match skip w with
    | '}' :: r => some ([(k, j)], r)
    | ',' :: t => (fields? fuel t).map fun (fs, r) => ((k, j) :: fs, r)
    | _ => none

end

/-- The value that a text as a whole writes. -/
def read? (s : Text) : Option Json :=
  (value? (2 * s.length) s).bind fun (j, r) => if skip r = [] then some j else none

/-! ## The reader follows the grammar -/

section

variable {s t r v : Text} {j : Json} {js : List Json} {fs : List (Text × Json)} {n : Nat}

theorem Chars.length_lt (h : Chars s v r) : r.length < s.length := by
  induction h with
  | close => simp
  | escape he _ ih =>
    have hlt := escape?_length_lt he
    simp only [List.length_cons]
    omega
  | plain _ _ ih =>
    simp only [List.length_cons]
    omega

theorem length_lt_of_skip {c : Char} (h : skip s = c :: r) : r.length < s.length := by
  have hle : (skip s).length ≤ s.length := (List.dropWhile_suffix _).length_le
  rw [h, List.length_cons] at hle
  omega

mutual

theorem Value.length_lt {s r : Text} {j : Json} : Value s j r → r.length < s.length
  | .null h => by
    have hlt := length_lt_of_skip (r := "ull" ++ r) h
    simp only [List.length_append] at hlt
    omega
  | .string h hv => Nat.lt_trans hv.length_lt (length_lt_of_skip h)
  | .emptyArray h he => Nat.lt_trans (length_lt_of_skip he) (length_lt_of_skip h)
  | .array h hi => Nat.lt_trans hi.length_lt (length_lt_of_skip h)
  | .emptyObject h he => Nat.lt_trans (length_lt_of_skip he) (length_lt_of_skip h)
  | .object h hf => Nat.lt_trans hf.length_lt (length_lt_of_skip h)

theorem Items.length_lt {s r : Text} {js : List Json} : Items s js r → r.length < s.length
  | .last hj h => Nat.lt_trans (length_lt_of_skip h) hj.length_lt
  | .more hj h hi =>
    Nat.lt_trans hi.length_lt (Nat.lt_trans (length_lt_of_skip h) hj.length_lt)

theorem Fields.length_lt {s r : Text} {fs : List (Text × Json)} :
    Fields s fs r → r.length < s.length
  | .last hs hk hu hj h => by
    have := length_lt_of_skip hs
    have := hk.length_lt
    have := length_lt_of_skip hu
    have := hj.length_lt
    have := length_lt_of_skip h
    omega
  | .more hs hk hu hj h hf => by
    have := length_lt_of_skip hs
    have := hk.length_lt
    have := length_lt_of_skip hu
    have := hj.length_lt
    have := length_lt_of_skip h
    have := hf.length_lt
    omega

end

theorem Value.skip_ne (h : Value s j r) : skip s ≠ ']' :: t := by
  cases h <;> simp_all

theorem Items.skip_ne (h : Items s js r) : skip s ≠ ']' :: t := by
  cases h with
  | last hj _ => exact hj.skip_ne
  | more hj _ _ => exact hj.skip_ne

theorem Fields.skip_ne (h : Fields s fs r) : skip s ≠ '}' :: t := by
  cases h <;> simp_all

mutual

theorem Value.of_value? {n : Nat} {s r : Text} {j : Json} (h : value? n s = some (j, r)) :
    Value s j r := by
  cases n with
  | zero => simp [value?] at h
  | succ n =>
    rw [value?] at h
    split at h
    · rename_i t hs
      simp only [Option.map_eq_some_iff, Prod.exists, Prod.mk.injEq] at h
      obtain ⟨v, _, hv, rfl, rfl⟩ := h
      exact .string hs (.of_chars? hv)
    · rename_i t hs
      split at h
      · rename_i he
        simp only [Option.some.injEq, Prod.mk.injEq] at h
        obtain ⟨rfl, rfl⟩ := h
        exact .emptyArray hs he
      · simp only [Option.map_eq_some_iff, Prod.exists, Prod.mk.injEq] at h
        obtain ⟨js, _, hi, rfl, rfl⟩ := h
        exact .array hs (Items.of_items? hi)
    · rename_i t hs
      split at h
      · rename_i he
        simp only [Option.some.injEq, Prod.mk.injEq] at h
        obtain ⟨rfl, rfl⟩ := h
        exact .emptyObject hs he
      · simp only [Option.map_eq_some_iff, Prod.exists, Prod.mk.injEq] at h
        obtain ⟨fs, _, hf, rfl, rfl⟩ := h
        exact .object hs (Fields.of_fields? hf)
    · simp only [Option.map_eq_some_iff, Prod.mk.injEq] at h
      obtain ⟨_, hn, rfl, rfl⟩ := h
      exact .null (Text.after?_eq_some_iff.1 hn)

theorem Items.of_items? {n : Nat} {s r : Text} {js : List Json} (h : items? n s = some (js, r)) :
    Items s js r := by
  cases n with
  | zero => simp [items?] at h
  | succ n =>
    rw [items?] at h
    obtain ⟨⟨j, t⟩, hj, h⟩ := Option.bind_eq_some_iff.1 h
    simp only at h
    split at h
    · rename_i ht
      simp only [Option.some.injEq, Prod.mk.injEq] at h
      obtain ⟨rfl, rfl⟩ := h
      exact .last (Value.of_value? hj) ht
    · rename_i ht
      simp only [Option.map_eq_some_iff, Prod.exists, Prod.mk.injEq] at h
      obtain ⟨js, _, hi, rfl, rfl⟩ := h
      exact .more (Value.of_value? hj) ht (Items.of_items? hi)
    · simp at h

theorem Fields.of_fields? {n : Nat} {s r : Text} {fs : List (Text × Json)}
    (h : fields? n s = some (fs, r)) : Fields s fs r := by
  cases n with
  | zero => simp [fields?] at h
  | succ n =>
    rw [fields?] at h
    split at h
    · rename_i t hs
      obtain ⟨⟨k, u⟩, hk, h⟩ := Option.bind_eq_some_iff.1 h
      simp only at h
      split at h
      · rename_i v hu
        obtain ⟨⟨j, w⟩, hj, h⟩ := Option.bind_eq_some_iff.1 h
        simp only at h
        split at h
        · rename_i hw
          simp only [Option.some.injEq, Prod.mk.injEq] at h
          obtain ⟨rfl, rfl⟩ := h
          exact .last hs (.of_chars? hk) hu (Value.of_value? hj) hw
        · rename_i hw
          simp only [Option.map_eq_some_iff, Prod.exists, Prod.mk.injEq] at h
          obtain ⟨fs, _, hf, rfl, rfl⟩ := h
          exact .more hs (.of_chars? hk) hu (Value.of_value? hj) hw (Fields.of_fields? hf)
        · simp at h
      · simp at h
    · simp at h

end

mutual

/-- Twice the length of the text is enough fuel. A list spends one on its first value without
passing a character, but every value passes one. -/
theorem Value.value?_eq {s r : Text} {j : Json} :
    Value s j r → ∀ {n : Nat}, 2 * s.length ≤ n → value? n s = some (j, r)
  | h, 0, hn => by
    have := h.length_lt
    omega
  | .null h, n + 1, hn => by
    rw [value?, h]
    exact congrArg (Option.map _) (Text.after?_eq_some_iff.2 rfl)
  | .string h hv, n + 1, hn => by
    rw [value?, h]
    simp only [hv.chars?_eq, Option.map_some]
  | .emptyArray h he, n + 1, hn => by
    rw [value?, h]
    simp only [he]
  | .array h hi, n + 1, hn => by
    have := length_lt_of_skip h
    rw [value?, h]
    simp only
    split
    · rename_i he
      exact (hi.skip_ne he).elim
    · rw [hi.items?_eq (by omega), Option.map_some]
  | .emptyObject h he, n + 1, hn => by
    rw [value?, h]
    simp only [he]
  | .object h hf, n + 1, hn => by
    have := length_lt_of_skip h
    rw [value?, h]
    simp only
    split
    · rename_i he
      exact (hf.skip_ne he).elim
    · rw [hf.fields?_eq (by omega), Option.map_some]

theorem Items.items?_eq {s r : Text} {js : List Json} :
    Items s js r → ∀ {n : Nat}, 2 * s.length < n → items? n s = some (js, r)
  | _, 0, hn => by omega
  | .last hj h, n + 1, hn => by
    rw [items?, hj.value?_eq (by omega)]
    simp only [Option.bind_eq_bind, Option.bind_some, h]
  | .more hj h hi, n + 1, hn => by
    have := hj.length_lt
    have := length_lt_of_skip h
    rw [items?, hj.value?_eq (by omega)]
    simp only [Option.bind_eq_bind, Option.bind_some, h]
    rw [hi.items?_eq (by omega), Option.map_some]

theorem Fields.fields?_eq {s r : Text} {fs : List (Text × Json)} :
    Fields s fs r → ∀ {n : Nat}, 2 * s.length < n → fields? n s = some (fs, r)
  | _, 0, hn => by omega
  | .last hs hk hu hj h, n + 1, hn => by
    have := length_lt_of_skip hs
    have := hk.length_lt
    have := length_lt_of_skip hu
    rw [fields?, hs]
    simp only [hk.chars?_eq, Option.bind_eq_bind, Option.bind_some, hu]
    rw [hj.value?_eq (by omega)]
    simp only [Option.bind_some, h]
  | .more hs hk hu hj h hf, n + 1, hn => by
    have := length_lt_of_skip hs
    have := hk.length_lt
    have := length_lt_of_skip hu
    have := hj.length_lt
    have := length_lt_of_skip h
    rw [fields?, hs]
    simp only [hk.chars?_eq, Option.bind_eq_bind, Option.bind_some, hu]
    rw [hj.value?_eq (by omega)]
    simp only [Option.bind_some, h]
    rw [hf.fields?_eq (by omega), Option.map_some]

end

/-- The reader finds the value that the grammar derives for a text, and no other. -/
theorem read?_eq_some_iff : read? s = some j ↔ Writes s j := by
  constructor
  · intro h
    obtain ⟨⟨k, r⟩, hv, h⟩ := Option.bind_eq_some_iff.1 h
    simp only [Option.ite_none_right_eq_some, Option.some.injEq] at h
    obtain ⟨hr, rfl⟩ := h
    exact ⟨r, .of_value? hv, hr⟩
  · rintro ⟨r, hv, hr⟩
    rw [read?, hv.value?_eq (Nat.le_refl _)]
    exact if_pos hr

end

end ApiBook.Json
