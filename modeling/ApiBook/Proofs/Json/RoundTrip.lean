import ApiBook.Proofs.Json.Reader

/-! # Round trip of JSON values

What is rendered is a JSON text of the value, so reading it gives the value back, and two values
have two texts.
-/

namespace ApiBook.Json

variable {s t r v : Text} {j : Json}

/-! ## Strings -/

theorem Chars.letter {c d : Char} (hu : d ≠ 'u') (hd : letter? d = some c) (h : Chars s v r) :
    Chars ('\\' :: d :: s) (c :: v) r := by
  refine .escape ?_ h
  rw [escape?]
  · rw [hd, Option.map_some]
  · exact hu

theorem Chars.control {n : Nat} (hn : n < 32) (h : Chars s v r) :
    Chars ("\\u00" ++ [hexDigit (n / 16), hexDigit (n % 16)] ++ s) (Char.ofNat n :: v) r := by
  have hd : ∀ n < 32, ['0', '0', hexDigit (n / 16), hexDigit (n % 16)].all Text.isHexDigit ∧
      Text.numberOf 16 ['0', '0', hexDigit (n / 16), hexDigit (n % 16)] = n ∧
      Text.scalar? n = some (Char.ofNat n) := by decide
  obtain ⟨hall, hnum, hc⟩ := hd n hn
  have hu : codeUnit? ('0' :: '0' :: hexDigit (n / 16) :: hexDigit (n % 16) :: s) =
      some (n, s) := by
    rw [codeUnit?, if_pos hall, hnum]
  refine .escape (s := 'u' :: '0' :: '0' :: hexDigit (n / 16) :: hexDigit (n % 16) :: s) ?_ h
  rw [escape?, hu]
  simp only [Option.bind_some, hc]

theorem Chars.escapeChar (c : Char) (h : Chars s v r) :
    Chars (escapeChar c ++ s) (c :: v) r := by
  unfold Json.escapeChar
  iterate 7
    split
    next hc => exact hc ▸ .letter (by decide) rfl h
  split
  · next hc =>
    have := Chars.control hc h
    rwa [Char.ofNat_toNat] at this
  · next hq hb _ _ _ _ _ hc => exact .plain ⟨Nat.not_lt.1 hc, hq, hb⟩ h

theorem Chars.flatMap_escapeChar (s r : Text) :
    Chars (s.flatMap Json.escapeChar ++ '"' :: r) s r := by
  induction s with
  | nil => exact .close
  | cons c s ih =>
    rw [List.flatMap_cons, List.append_assoc]
    exact .escapeChar c ih

/-! ## Values -/

@[simp] theorem skip_newLine (level : Nat) (s : Text) : skip (newLine level ++ s) = skip s := by
  refine List.dropWhile_append_of_pos fun c hc => ?_
  obtain rfl | hc := List.mem_cons.1 hc
  · rfl
  · rw [List.eq_of_mem_replicate hc]
    rfl

@[simp] theorem skip_space (s : Text) : skip (' ' :: s) = skip s := rfl

theorem Value.of_skip_eq (h : skip s = skip t) (hv : Value s j r) : Value t j r := by
  cases hv with
  | null hs => exact .null (h ▸ hs)
  | string hs hv => exact .string (h ▸ hs) hv
  | emptyArray hs he => exact .emptyArray (h ▸ hs) he
  | array hs hi => exact .array (h ▸ hs) hi
  | emptyObject hs he => exact .emptyObject (h ▸ hs) he
  | object hs hf => exact .object (h ▸ hs) hf

theorem Value.newLine (level : Nat) (hv : Value s j r) : Value (newLine level ++ s) j r :=
  hv.of_skip_eq (skip_newLine ..).symm

theorem Value.space (hv : Value s j r) : Value (' ' :: s) j r :=
  hv.of_skip_eq (skip_space s).symm

mutual

theorem value_pretty (level : Nat) (r : Text) : ∀ j : Json, Value (pretty level j ++ r) j r
  | null => .null rfl
  | string s => by
    simp only [pretty, quote, List.cons_append, List.append_assoc, List.nil_append]
    exact .string rfl (.flatMap_escapeChar s r)
  | array [] => .emptyArray rfl rfl
  | array (j :: js) => by
    simp only [pretty, List.append_assoc]
    exact .array rfl (items_prettyItems (level + 1) (skip_newLine ..) (j :: js) (by simp))
  | object [] => .emptyObject rfl rfl
  | object (f :: fs) => by
    simp only [pretty, List.append_assoc]
    exact .object rfl (fields_prettyFields (level + 1) (skip_newLine ..) (f :: fs) (by simp))

theorem items_prettyItems (level : Nat) {s r : Text} (hs : skip s = ']' :: r) :
    ∀ js : List Json, js ≠ [] → Items (prettyItems level js ++ s) js r
  | [j], _ => by
    simp only [prettyItems, List.isEmpty_nil, ↓reduceIte, List.append_nil, List.append_assoc]
    exact .last ((value_pretty level s j).newLine level) hs
  | j :: j' :: js, _ => by
    rw [prettyItems]
    simp only [List.isEmpty_cons, Bool.false_eq_true, ↓reduceIte, List.append_assoc]
    exact .more ((value_pretty level _ j).newLine level) rfl
      (items_prettyItems level hs (j' :: js) (by simp))

theorem fields_prettyFields (level : Nat) {s r : Text} (hs : skip s = '}' :: r) :
    ∀ fs : List (Text × Json), fs ≠ [] → Fields (prettyFields level fs ++ s) fs r
  | [(k, j)], _ => by
    simp only [prettyFields, quote, List.isEmpty_nil, ↓reduceIte, List.append_nil,
      List.append_assoc, List.cons_append, List.nil_append]
    exact .last (skip_newLine ..) (.flatMap_escapeChar k _) rfl (value_pretty level s j).space hs
  | (k, j) :: f :: fs, _ => by
    rw [prettyFields]
    simp only [quote, List.isEmpty_cons, Bool.false_eq_true, ↓reduceIte, List.append_assoc,
      List.cons_append, List.nil_append]
    exact .more (skip_newLine ..) (.flatMap_escapeChar k _) rfl (value_pretty level _ j).space rfl
      (fields_prettyFields level hs (f :: fs) (by simp))

end

theorem writes_render (j : Json) : Writes j.render j := by
  refine ⟨[], ?_, rfl⟩
  have h := value_pretty 0 [] j
  rwa [List.append_nil] at h

@[simp] theorem read?_render (j : Json) :
    read? j.render = some j := read?_eq_some_iff.2 (writes_render j)

end ApiBook.Json
