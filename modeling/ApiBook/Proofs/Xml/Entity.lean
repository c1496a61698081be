import ApiBook.Proofs.Text.Spans
import ApiBook.Proofs.Text.Substitute
import ApiBook.Proofs.Xml.Printer
import ApiBook.Xml.Entity

/-! # Entities

Each decoding pass undoes the escapes of one character and leaves the other escapes alone. No pass
reads past the end of a line.
-/

namespace ApiBook

namespace Xml

variable {a c : Char} {n m s t : Text} {S : List Char}

def entity (name : Text) : Text := '&' :: (name ++ ";")

theorem escapeChar_of_some (h : entities.lookup c = some n) : escapeChar c = entity n := by
  rw [escapeChar, h]
  rfl

theorem escapeChar_of_none (h : entities.lookup c = none) : escapeChar c = [c] := by
  rw [escapeChar, h]

theorem mem_entities (h : entities.lookup c = some n) : (c, n) ∈ entities := by
  obtain ⟨l, l', he, -⟩ := List.lookup_eq_some_iff.1 h
  rw [he]
  exact List.mem_append_right l List.mem_cons_self

theorem notMem_of_lookup (h : entities.lookup c = some n) : '&' ∉ n ∧ ';' ∉ n := by
  have hall : ∀ p ∈ entities, '&' ∉ p.2 ∧ ';' ∉ p.2 := by decide
  exact hall _ (mem_entities h)

theorem notKey_of_lookup (h : entities.lookup c = some n) :
    ∀ d ∈ n ++ (";" : Text), entities.lookup d = none := by
  have hall : ∀ p ∈ entities, (p.2 ++ (";" : Text)).all (entities.lookup · = none) := by decide
  exact fun d hd => of_decide_eq_true (List.all_eq_true.1 (hall _ (mem_entities h)) d hd)

theorem notMem_entity (h : entities.lookup c = some n) : '&' ∉ n ++ (";" : Text) := by
  simpa using (notMem_of_lookup h).1

theorem entities_injective (ha : entities.lookup a = some n) (hc : entities.lookup c = some n) :
    a = c := by
  have hall : ∀ p ∈ entities, ∀ q ∈ entities, p.2 = q.2 → p.1 = q.1 := by decide
  exact hall _ (mem_entities ha) _ (mem_entities hc) rfl

theorem notMem_escape (ha : (entities.lookup a).isSome) (hamp : a ≠ '&') (s : Text) :
    a ∉ escape s := by
  have hall : ∀ p ∈ entities, ∀ q ∈ entities, p.1 ≠ '&' → p.1 ∉ entity q.2 := by decide
  obtain ⟨m, hm⟩ := Option.isSome_iff_exists.1 ha
  rw [escape, List.mem_flatMap]
  rintro ⟨c, -, hc⟩
  cases h : entities.lookup c with
  | none =>
    rw [escapeChar_of_none h, List.mem_singleton] at hc
    rw [hc, h] at ha
    exact Bool.noConfusion ha
  | some n =>
    rw [escapeChar_of_some h] at hc
    exact hall _ (mem_entities hm) _ (mem_entities h) hamp hc

theorem after?_entity_of_ne (hn : ';' ∉ n) (hm : ';' ∉ m) (h : n ≠ m) :
    Text.after? (entity n) (entity m ++ t) = none := by
  refine Option.eq_none_iff_forall_ne_some.2 fun r hr => h ?_
  have he : m ++ ';' :: t = n ++ ';' :: r := by
    simpa [entity] using Text.after?_eq_some_iff.1 hr
  have hc := Text.cut?_append (b := r) hn
  rw [← he, Text.cut?_append hm] at hc
  exact (Prod.mk.inj (Option.some.inj hc)).1.symm

/-- The text of a character when only the characters of `S` are escaped. -/
def escapeIn (S : List Char) (c : Char) : Text := if c ∈ S then escapeChar c else [c]

/-- A pass undoes the escape of its character and leaves other escapes alone. -/
theorem replace_escapeIn_append (hn : entities.lookup a = some n) (ha : a ∉ S)
    (hamp : '&' ∈ a :: S) (hS : S.all fun c => (entities.lookup c).isSome) (c : Char) (t : Text) :
    Text.replace (entity n) [a] (escapeIn (a :: S) c ++ t) =
      escapeIn S c ++ Text.replace (entity n) [a] t := by
  by_cases hc : c ∈ a :: S
  · rcases List.mem_cons.1 hc with rfl | hcS
    · rw [escapeIn, if_pos hc, escapeChar_of_some hn, escapeIn, if_neg ha]
      exact Text.replace_append '&' (n ++ ";") [c] t
    · obtain ⟨m, hm⟩ := Option.isSome_iff_exists.1 (List.all_eq_true.1 hS c hcS)
      have hne : n ≠ m := by
        rintro rfl
        exact ha (entities_injective hn hm ▸ hcS)
      have hnone := after?_entity_of_ne (t := t) (notMem_of_lookup hn).2
        (notMem_of_lookup hm).2 hne
      rw [escapeIn, if_pos hc, escapeIn, if_pos hcS, escapeChar_of_some hm]
      exact (Text.onlyAt_replace '&' _ _).substitute_cons_append
        (congrArg (Option.map _) hnone) (notMem_entity hm)
  · have hne : '&' ∉ [c] := fun h => hc (List.mem_singleton.1 h ▸ hamp)
    rw [escapeIn, if_neg hc, escapeIn, if_neg (fun h => hc (List.mem_cons_of_mem a h))]
    exact Text.replace_append_of_notMem hne

theorem onlyAt_charRef? : Text.OnlyAt '&' charRef? := fun c cs h => by
  have ha : Text.after? "&#" (c :: cs) = none := Text.after?_cons_of_ne h
  rw [charRef?, ha]
  rfl

theorem charRef?_entity (h : entities.lookup c = some n) : charRef? (entity n ++ t) = none := by
  have hn := mem_entities h
  simp only [entities, List.mem_cons, Prod.mk.injEq, List.not_mem_nil, or_false] at hn
  rcases hn with ⟨-, rfl⟩ | ⟨-, rfl⟩ | ⟨-, rfl⟩ | ⟨-, rfl⟩ | ⟨-, rfl⟩ <;> rfl

section LineEnds

theorem codePoint?_append_cons {base : Nat} {isDigit : Char → Bool} (hc : isDigit c = false)
    (hs : c ≠ ';') (s t : Text) : codePoint? base isDigit (s ++ c :: t) =
      (codePoint? base isDigit s).map fun p => (p.1, p.2 ++ c :: t) := by
  rw [codePoint?, codePoint?, Text.takeWhile_append_cons hc, Text.dropWhile_append_cons hc]
  cases s.takeWhile isDigit with
  | nil => rfl
  | cons d ds =>
    cases s.dropWhile isDigit with
    | nil =>
      dsimp only [List.nil_append]
      split
      · rename_i h
        exact absurd (List.cons.inj h).1 hs
      · rfl
    | cons e es =>
      by_cases he : e = ';'
      · rw [he]
        rfl
      · simp only [List.cons_append]
        split
        · rename_i h
          exact absurd (List.cons.inj h).1 he
        · split
          · rename_i h
            exact absurd (List.cons.inj h).1 he
          · rfl

@[simp] theorem decode_nil : decode [] = [] := by
  simp [decode, Text.replace]

variable (hc : c = '\r' ∨ c = '\n')

include hc

theorem charRef?_append_cons (s t : Text) :
    charRef? (s ++ c :: t) = (charRef? s).map fun p => (p.1, p.2 ++ c :: t) := by
  have hsemi : c ≠ ';' := by rcases hc with rfl | rfl <;> decide
  have hhex : Text.isHexDigit c = false := by rcases hc with rfl | rfl <;> rfl
  have hdec : c.isDigit = false := by rcases hc with rfl | rfl <;> rfl
  have hread (k : Option (Nat × Text)) :
      ((k.map fun p => (p.1, p.2 ++ c :: t)).bind fun p =>
        (Text.scalar? p.1).bind fun d => some ([d], p.2)) =
      (k.bind fun p => (Text.scalar? p.1).bind fun d => some ([d], p.2)).map
        fun p => (p.1, p.2 ++ c :: t) := by
    cases k with
    | none => rfl
    | some p => cases h : Text.scalar? p.1 <;> simp [h]
  rw [charRef?, charRef?, Text.after?_append_cons (by rcases hc with rfl | rfl <;> decide)]
  cases Text.after? "&#" s with
  | none => rfl
  | some digits =>
    cases digits with
    | nil => rcases hc with rfl | rfl <;> rfl
    | cons d ds =>
      simp only [Option.bind_eq_bind, Option.map_some, Option.bind_some, List.cons_append]
      split
      · rename_i h
        cases h
        simp only [codePoint?_append_cons hhex hsemi]
        exact hread _
      · rename_i h
        cases h
        simp only [codePoint?_append_cons hhex hsemi]
        exact hread _
      · rename_i hx hX
        split
        · rename_i h
          cases h
          exact absurd rfl (hx _)
        · rename_i h
          cases h
          exact absurd rfl (hX _)
        · rw [← List.cons_append, codePoint?_append_cons hdec hsemi]
          exact hread _

theorem decode_append_cons (s t : Text) : decode (s ++ c :: t) = decode s ++ c :: decode t := by
  have hs := Text.substitute_append_cons rfl (fun s => charRef?_append_cons hc s t) s
  have hnot : ∀ p ∈ [("lt;" : Text), "gt;", "quot;", "apos;", "amp;"], c ∉ '&' :: p := by
    rcases hc with rfl | rfl <;> decide
  have hr (p q s t : Text) (hp : p ∈ [("lt;" : Text), "gt;", "quot;", "apos;", "amp;"]) :
      Text.replace ('&' :: p) q (s ++ c :: t) =
        Text.replace ('&' :: p) q s ++ c :: Text.replace ('&' :: p) q t :=
    Text.replace_append_cons (hnot p hp) s t
  rw [decode, decode, decode, hs]
  change Text.replace ('&' :: "amp;".toList) "&" (Text.replace ('&' :: "apos;".toList) "'"
    (Text.replace ('&' :: "quot;".toList) "\"" (Text.replace ('&' :: "gt;".toList) ">"
      (Text.replace ('&' :: "lt;".toList) "<" _)))) = _
  rw [hr, hr, hr, hr, hr]
  · rfl
  all_goals decide

theorem decode_cons (t : Text) : decode (c :: t) = c :: decode t := by
  have h := decode_append_cons hc [] t
  simpa using h

end LineEnds

end Xml

end ApiBook
