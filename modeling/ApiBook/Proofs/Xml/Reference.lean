import ApiBook.Proofs.Text.Spans
import ApiBook.Proofs.Xml.Entity

/-! # References one by one

A text is made of plain characters, named references and numeric references. Decoding in passes
gives the character of each of these, unless plain characters and those of numeric references spell
a named reference in a row, which a later pass then takes for one.
-/

namespace ApiBook.Xml

variable {a c : Char} {n u w s rest : Text} {S : List Char}

/-- A character of a text and how it is written. -/
inductive Token where
  | plain (c : Char)
  | named (c : Char)
  | numeric (c : Char)
  deriving DecidableEq, Repr

namespace Token

def char : Token → Char
  | plain c | named c | numeric c => c

def nameless? : Token → Option Char
  | plain c | numeric c => some c
  | named _ => none

/-- The text of a token once numeric references are decoded, and the named ones of all characters
but those of `S`. -/
def textIn (S : List Char) : Token → Text
  | plain c | numeric c => [c]
  | named c => escapeIn S c

end Token

section Reading

def numericToken? (s : Text) : Option (Token × Text) :=
  (charRef? s).bind fun p => p.1.head?.map fun c => (.numeric c, p.2)

def namedToken? (s : Text) : Option (Token × Text) :=
  entities.findSome? fun p => (Text.after? (entity p.2) s).map fun rest => (.named p.1, rest)

def plainToken? : Text → Option (Token × Text)
  | [] => none
  | c :: cs => some (.plain c, cs)

def token? (s : Text) : Option (Token × Text) :=
  ((numericToken? s).or (namedToken? s)).or (plainToken? s)

/-- The tokens of a text from left to right. -/
def tokens (s : Text) : List Token := Text.collect token? s

/-- Replaces every reference once, from left to right, and never reads what it has written. -/
def decodeOnce (s : Text) : Text := (tokens s).map Token.char

end Reading

/-- Somewhere tokens that are no named references spell one in a row. -/
def SpellsName (ts : List Token) : Prop :=
  ∃ p ∈ entities, (entity p.2).map some <:+: ts.map Token.nameless?

instance (ts : List Token) : Decidable (SpellsName ts) :=
  inferInstanceAs (Decidable (∃ p ∈ entities, (entity p.2).map some <:+: ts.map Token.nameless?))

variable {t : Token} {ts : List Token}

theorem SpellsName.cons (h : SpellsName ts) (t : Token) : SpellsName (t :: ts) := by
  obtain ⟨p, hp, h⟩ := h
  exact ⟨p, hp, h.trans (List.suffix_cons _ _).isInfix⟩

section Passes

theorem map_some_prefix (hu : ∀ c ∈ u, entities.lookup c = none)
    (hv : ∀ c, .named c ∈ ts → (entities.lookup c).isSome)
    (h : ts.flatMap (Token.textIn S) = u ++ rest) : u.map some <+: ts.map Token.nameless? := by
  induction u generalizing ts with
  | nil => exact List.nil_prefix
  | cons c u ih =>
    obtain ⟨hc, hu'⟩ := List.forall_mem_cons.1 hu
    cases ts with
    | nil => cases h
    | cons t ts =>
      have hv' : ∀ c, .named c ∈ ts → (entities.lookup c).isSome := fun c hc =>
        hv c (List.mem_cons_of_mem t hc)
      rw [List.flatMap_cons, List.cons_append] at h
      cases t with
      | plain d | numeric d =>
        obtain ⟨rfl, h'⟩ := List.cons.inj h
        exact List.cons_prefix_cons.2 ⟨rfl, ih hu' hv' h'⟩
      | named d =>
        obtain ⟨m, hm⟩ := Option.isSome_iff_exists.1 (hv d List.mem_cons_self)
        rw [Token.textIn, escapeIn] at h
        split at h
        · rw [escapeChar_of_some hm] at h
          obtain ⟨rfl, -⟩ := List.cons.inj h
          cases hc
        · obtain ⟨rfl, -⟩ := List.cons.inj h
          rw [hm] at hc
          cases hc

/-- A pass undoes the escapes of one character, since no bare ampersand starts its name. -/
theorem replace_textIn (hn : entities.lookup a = some n) (ha : a ∉ S) (hamp : '&' ∈ a :: S)
    (hS : S.all fun c => (entities.lookup c).isSome)
    (hv : ∀ c, .named c ∈ ts → (entities.lookup c).isSome) (hs : ¬ SpellsName ts) :
    Text.replace (entity n) [a] (ts.flatMap (Token.textIn (a :: S))) =
      ts.flatMap (Token.textIn S) := by
  induction ts with
  | nil => exact Text.substitute_nil _
  | cons t ts ih =>
    have hv' : ∀ c, .named c ∈ ts → (entities.lookup c).isSome := fun c hc =>
      hv c (List.mem_cons_of_mem t hc)
    have ih := ih hv' fun h => hs (h.cons t)
    rw [List.flatMap_cons, List.flatMap_cons, ← ih]
    cases t with
    | named c => exact replace_escapeIn_append hn ha hamp hS c _
    | plain c | numeric c =>
      by_cases hc : c = '&'
      · have hnone : Text.after? (entity n) ('&' :: ts.flatMap (Token.textIn (a :: S))) = none := by
          refine Option.eq_none_iff_forall_ne_some.2 fun r hr => hs ?_
          have hr := (List.cons.inj (Text.after?_eq_some_iff.1 hr)).2
          have hp := map_some_prefix (notKey_of_lookup hn) hv' hr
          exact ⟨_, mem_entities hn, (List.cons_prefix_cons.2 ⟨hc ▸ rfl, hp⟩).isInfix⟩
        rw [hc]
        exact (Text.onlyAt_replace '&' _ _).substitute_cons_append (x := [])
          (congrArg (Option.map _) hnone) List.not_mem_nil
      · exact Text.replace_append_of_notMem (by simpa [Token.textIn, eq_comm] using hc)

@[simp] theorem flatMap_textIn_nil (ts : List Token) :
    ts.flatMap (Token.textIn []) = ts.map Token.char := by
  induction ts with
  | nil => rfl
  | cons t ts ih =>
    rw [List.flatMap_cons, ih]
    cases t <;> rfl

/-- The characters that are escaped, in the order of the passes. -/
def keys : List Char := ['<', '>', '"', '\'', '&']

theorem decode_of_substitute (hs : Text.substitute charRef? s = ts.flatMap (Token.textIn keys))
    (hv : ∀ c, .named c ∈ ts → (entities.lookup c).isSome) (hn : ¬ SpellsName ts) :
    decode s = ts.map Token.char := by
  have hlt : Text.replace "&lt;" "<" (ts.flatMap (Token.textIn ['<', '>', '"', '\'', '&'])) = _ :=
    replace_textIn (a := '<') rfl (by decide) (by decide) (by decide) hv hn
  have hgt : Text.replace "&gt;" ">" (ts.flatMap (Token.textIn ['>', '"', '\'', '&'])) = _ :=
    replace_textIn (a := '>') rfl (by decide) (by decide) (by decide) hv hn
  have hquot : Text.replace "&quot;" "\"" (ts.flatMap (Token.textIn ['"', '\'', '&'])) = _ :=
    replace_textIn (a := '"') rfl (by decide) (by decide) (by decide) hv hn
  have hapos : Text.replace "&apos;" "'" (ts.flatMap (Token.textIn ['\'', '&'])) = _ :=
    replace_textIn (a := '\'') rfl (by decide) (by decide) (by decide) hv hn
  have hamp : Text.replace "&amp;" "&" (ts.flatMap (Token.textIn ['&'])) = _ :=
    replace_textIn (a := '&') rfl (by decide) (by decide) (by decide) hv hn
  rw [decode, hs, keys, hlt, hgt, hquot, hapos, hamp, flatMap_textIn_nil]

end Passes

section Names

theorem flatMap_textIn_of_nameless (h : ts.map Token.nameless? = u.map some) :
    ts.flatMap (Token.textIn S) = u := by
  induction ts generalizing u with
  | nil => exact (List.map_eq_nil_iff.1 h.symm).symm
  | cons t ts ih =>
    cases u with
    | nil => cases h
    | cons c u =>
      obtain ⟨ht, h⟩ := List.cons.inj h
      rw [List.flatMap_cons, ih h]
      cases t <;> cases ht
      all_goals rfl

theorem SpellsName.shorten (h : SpellsName ts) :
    ∃ ts' : List Token, ts'.length < ts.length ∧
      ts'.flatMap (Token.textIn keys) = ts.flatMap (Token.textIn keys) ∧
      ∀ c, .named c ∈ ts' → .named c ∈ ts ∨ (entities.lookup c).isSome := by
  obtain ⟨⟨c, n⟩, hp, front, back, h⟩ := h
  obtain ⟨ts₁, ts₃, rfl, hfront, hback⟩ := List.map_eq_append_iff.1 h.symm
  obtain ⟨ts₁, ts₂, rfl, hfront, hname⟩ := List.map_eq_append_iff.1 hfront
  have hc : entities.lookup c = some n := by
    have hall : ∀ p ∈ entities, entities.lookup p.1 = some p.2 := by decide
    exact hall _ hp
  have hkey : c ∈ keys := by
    have hall : ∀ p ∈ entities, p.1 ∈ keys := by decide
    exact hall _ hp
  refine ⟨ts₁ ++ .named c :: ts₃, ?_, ?_, fun d hd => ?_⟩
  · have hlen := congrArg List.length hname
    simp only [List.length_map, entity, List.length_cons, List.length_append] at hlen ⊢
    have hsemi : (";" : Text).length = 1 := rfl
    omega
  · simp [flatMap_textIn_of_nameless hname, Token.textIn, escapeIn, hkey, escapeChar_of_some hc]
  · simp only [List.mem_append, List.mem_cons, Token.named.injEq] at hd ⊢
    rcases hd with hd | rfl | hd
    · exact .inl (.inl (.inl hd))
    · exact .inr (hc ▸ rfl)
    · exact .inl (.inr hd)

/-- The same text in tokens that spell no name. If they are others, they are fewer. -/
theorem exists_not_spellsName (hv : ∀ c, .named c ∈ ts → (entities.lookup c).isSome) :
    ∃ ts' : List Token, ¬ SpellsName ts' ∧
      ts'.flatMap (Token.textIn keys) = ts.flatMap (Token.textIn keys) ∧
      (∀ c, .named c ∈ ts' → (entities.lookup c).isSome) ∧
      (ts' = ts ∨ ts'.length < ts.length) := by
  induction hl : ts.length using Nat.strongRecOn generalizing ts with
  | ind l ih =>
    by_cases hs : SpellsName ts
    · obtain ⟨ts₁, hlt, htext, hmem⟩ := hs.shorten
      have hv₁ : ∀ c, .named c ∈ ts₁ → (entities.lookup c).isSome := fun c hc =>
        (hmem c hc).elim (hv c) id
      obtain ⟨ts₂, hs₂, htext₂, hv₂, hle⟩ := ih _ (hl ▸ hlt) hv₁ rfl
      refine ⟨ts₂, hs₂, htext₂.trans htext, hv₂, .inr ?_⟩
      rcases hle with rfl | hle
      · exact hl ▸ hlt
      · exact hl ▸ Nat.lt_trans hle hlt
    · exact ⟨ts, hs, rfl, hv, .inl rfl⟩

end Names

section Tokens

theorem codePoint?_length_lt {base k : Nat} {isDigit : Char → Bool}
    (h : codePoint? base isDigit s = some (k, rest)) : rest.length < s.length := by
  unfold codePoint? at h
  split at h
  · rename_i hd
    cases h
    have hle := (List.dropWhile_suffix (l := s) isDigit).length_le
    rw [hd, List.length_cons] at hle
    exact hle
  · cases h

theorem charRef?_eq_some {p : Text × Text} (h : charRef? s = some p) :
    (∃ c, p.1 = [c]) ∧ p.2.length < s.length := by
  simp only [charRef?, Option.bind_eq_bind, Option.bind_eq_some_iff] at h
  obtain ⟨digits, hd, h⟩ := h
  have hlen := Text.length_after? hd
  split at h
  all_goals
    obtain ⟨⟨k, rest⟩, hk, h⟩ := Option.bind_eq_some_iff.1 h
    obtain ⟨c, -, h⟩ := Option.bind_eq_some_iff.1 h
    cases h
    have hlt : rest.length < s.length := by grind [codePoint?_length_lt hk]
    exact ⟨⟨c, rfl⟩, hlt⟩

theorem numericToken?_eq_some (h : numericToken? s = some (t, rest)) :
    ∃ c, t = .numeric c ∧ charRef? s = some ([c], rest) ∧ rest.length < s.length := by
  obtain ⟨⟨out, rest'⟩, hp, h⟩ := Option.bind_eq_some_iff.1 h
  obtain ⟨⟨c, rfl⟩, hlen⟩ := charRef?_eq_some hp
  cases h
  exact ⟨c, rfl, hp, hlen⟩

@[simp] theorem numericToken?_eq_none_iff : numericToken? s = none ↔ charRef? s = none := by
  refine ⟨fun h => Option.eq_none_iff_forall_ne_some.2 fun p hp => ?_, fun h => by
    rw [numericToken?, h]; rfl⟩
  obtain ⟨⟨c, hc⟩, -⟩ := charRef?_eq_some hp
  rw [numericToken?, hp, Option.bind_some, hc] at h
  cases h

theorem namedToken?_eq_some (h : namedToken? s = some (t, rest)) :
    ∃ c n, t = .named c ∧ entities.lookup c = some n ∧ s = entity n ++ rest := by
  obtain ⟨⟨c, n⟩, hp, h⟩ := List.exists_of_findSome?_eq_some h
  obtain ⟨r, hr, h⟩ := Option.map_eq_some_iff.1 h
  cases h
  have hall : ∀ p ∈ entities, entities.lookup p.1 = some p.2 := by decide
  exact ⟨c, n, rfl, hall _ hp, Text.after?_eq_some_iff.1 hr⟩

theorem tokens_of_token? (h : token? s = some (t, rest)) (hlt : rest.length < s.length) :
    tokens s = t :: tokens rest := by
  cases s with
  | nil => exact absurd hlt (Nat.not_lt_zero _)
  | cons c cs => exact Text.collect_of_some h (Nat.le_of_lt_succ hlt)

theorem length_lt_entity_append (n rest : Text) : rest.length < (entity n ++ rest).length := by
  simp only [entity, List.length_append, List.length_cons]
  omega

@[simp] theorem tokens_nil : tokens [] = [] := Text.collect_nil token?

theorem tokens_induction {motive : Text → List Token → Prop} (nil : motive [] [])
    (numeric : ∀ c cs d rest, charRef? (c :: cs) = some ([d], rest) → rest.length ≤ cs.length →
      motive rest (tokens rest) → motive (c :: cs) (.numeric d :: tokens rest))
    (named : ∀ c n rest, entities.lookup c = some n → motive rest (tokens rest) →
      motive (entity n ++ rest) (.named c :: tokens rest))
    (plain : ∀ c cs, charRef? (c :: cs) = none → motive cs (tokens cs) →
      motive (c :: cs) (.plain c :: tokens cs)) (s : Text) : motive s (tokens s) := by
  induction hl : s.length using Nat.strongRecOn generalizing s with
  | ind l ih =>
    cases s with
    | nil =>
      simpa using nil
    | cons c cs =>
      cases hn : numericToken? (c :: cs) with
      | some p =>
        obtain ⟨t, rest⟩ := p
        obtain ⟨d, rfl, hd, hlt⟩ := numericToken?_eq_some hn
        have ht : token? (c :: cs) = some (.numeric d, rest) := by rw [token?, hn]; rfl
        rw [tokens_of_token? ht hlt]
        exact numeric c cs d rest hd (Nat.le_of_lt_succ hlt) (ih _ (hl ▸ hlt) rest rfl)
      | none =>
        cases hm : namedToken? (c :: cs) with
        | some p =>
          obtain ⟨t, rest⟩ := p
          obtain ⟨d, n, rfl, hd, hs⟩ := namedToken?_eq_some hm
          have ht : token? (c :: cs) = some (.named d, rest) := by rw [token?, hn, hm]; rfl
          have hlt : rest.length < (c :: cs).length := hs ▸ length_lt_entity_append n rest
          rw [tokens_of_token? ht hlt, hs]
          exact named d n rest hd (ih _ (hl ▸ hlt) rest rfl)
        | none =>
          have ht : token? (c :: cs) = some (.plain c, cs) := by rw [token?, hn, hm]; rfl
          rw [tokens_of_token? ht (Nat.lt_succ_self _)]
          exact plain c cs (numericToken?_eq_none_iff.1 hn)
            (ih _ (hl ▸ Nat.lt_succ_self _) cs rfl)

/-- Decoding numeric references leaves the tokens with their characters or names. -/
theorem substitute_charRef?_eq (s : Text) :
    Text.substitute charRef? s = (tokens s).flatMap (Token.textIn keys) := by
  refine tokens_induction (motive := fun s ts =>
    Text.substitute charRef? s = ts.flatMap (Token.textIn keys)) ?_ ?_ ?_ ?_ s
  · exact Text.substitute_nil _
  · intro c cs d rest hd hle ih
    rw [List.flatMap_cons, ← ih]
    exact Text.substitute_of_some hd hle
  · intro c n rest hc ih
    have hkey : c ∈ keys := by
      have hall : ∀ p ∈ entities, p.1 ∈ keys := by decide
      exact hall _ (mem_entities hc)
    rw [List.flatMap_cons, ← ih, Token.textIn, escapeIn, if_pos hkey, escapeChar_of_some hc]
    exact onlyAt_charRef?.substitute_cons_append (charRef?_entity hc) (notMem_entity hc)
  · intro c cs hc ih
    rw [List.flatMap_cons, ← ih]
    exact Text.substitute_of_none hc

theorem lookup_of_mem_tokens (s : Text) :
    ∀ c, .named c ∈ tokens s → (entities.lookup c).isSome := by
  refine tokens_induction (motive := fun _ ts =>
    ∀ c, .named c ∈ ts → (entities.lookup c).isSome) ?_ ?_ ?_ ?_ s
  · exact fun c hc => nomatch hc
  · intro _ _ _ rest _ _ ih c hc
    exact ih c ((List.mem_cons.1 hc).resolve_left Token.noConfusion)
  · intro d n rest hd ih c hc
    rcases List.mem_cons.1 hc with hc | hc
    · obtain rfl := Token.named.inj hc
      rw [hd]
      rfl
    · exact ih c hc
  · intro _ _ _ ih c hc
    exact ih c ((List.mem_cons.1 hc).resolve_left Token.noConfusion)

/-- The passes replace each reference once exactly when no name is spelled by other tokens. -/
theorem decode_eq_iff (s : Text) : decode s = decodeOnce s ↔ ¬ SpellsName (tokens s) := by
  have hs := substitute_charRef?_eq s
  have hv := lookup_of_mem_tokens s
  refine ⟨fun h hn => ?_, decode_of_substitute hs hv⟩
  obtain ⟨ts, hts, htext, hv', hlt⟩ := exists_not_spellsName hv
  have hd : decode s = ts.map Token.char := decode_of_substitute (hs.trans htext.symm) hv' hts
  have hlen := congrArg List.length (hd.symm.trans h)
  rw [decodeOnce, List.length_map, List.length_map] at hlen
  rcases hlt with rfl | hlt
  · exact hts hn
  · exact absurd hlen (Nat.ne_of_lt hlt)

end Tokens

section Writing

/-- A token is written as itself, unless it is an ampersand, by name, or with the digits of its
number. -/
inductive Token.Writes : Token → Text → Prop
  | plain {c : Char} (h : c ≠ '&') : Writes (.plain c) [c]
  | named {c : Char} {n : Text} (h : entities.lookup c = some n) : Writes (.named c) (entity n)
  | decimal {c : Char} {ds : Text} (hne : ds ≠ []) (hd : ∀ d ∈ ds, d.isDigit)
      (hn : Text.numberOf 10 ds = c.toNat) : Writes (.numeric c) ('&' :: '#' :: (ds ++ [';']))
  | hexadecimal {c x : Char} {ds : Text} (hx : x = 'x' ∨ x = 'X') (hne : ds ≠ [])
      (hd : ∀ d ∈ ds, Text.isHexDigit d) (hn : Text.numberOf 16 ds = c.toNat) :
      Writes (.numeric c) ('&' :: '#' :: x :: (ds ++ [';']))

@[simp] theorem scalar?_toNat (c : Char) : Text.scalar? c.toNat = some c := by
  have hv : c.toNat.isValidChar := c.valid
  rw [Text.scalar?, if_pos hv, Char.ofNat_toNat]

theorem codePoint?_append {base : Nat} {isDigit : Char → Bool} {ds : Text} (hne : ds ≠ [])
    (hd : ∀ d ∈ ds, isDigit d) (hs : isDigit ';' = false) (rest : Text) :
    codePoint? base isDigit (ds ++ ';' :: rest) = some (Text.numberOf base ds, rest) := by
  have ht : (ds ++ ';' :: rest).takeWhile isDigit = ds := Text.takeWhile_append hd (.cons hs rest)
  have hr : (ds ++ ';' :: rest).dropWhile isDigit = ';' :: rest :=
    Text.dropWhile_append hd (.cons hs rest)
  rw [codePoint?, ht, hr]
  cases ds with
  | nil => exact absurd rfl hne
  | cons d ds => rfl

theorem namedToken?_entity_append (h : entities.lookup c = some n) (rest : Text) :
    namedToken? (entity n ++ rest) = some (.named c, rest) := by
  have hc := mem_entities h
  simp only [entities, List.mem_cons, Prod.mk.injEq, List.not_mem_nil, or_false] at hc
  rcases hc with ⟨rfl, rfl⟩ | ⟨rfl, rfl⟩ | ⟨rfl, rfl⟩ | ⟨rfl, rfl⟩ | ⟨rfl, rfl⟩ <;> rfl

theorem charRef?_decimal_append {ds : Text} (hne : ds ≠ []) (hd : ∀ d ∈ ds, d.isDigit)
    (hn : Text.numberOf 10 ds = c.toNat) (rest : Text) :
    charRef? ('&' :: '#' :: (ds ++ ';' :: rest)) = some ([c], rest) := by
  have hp : codePoint? 10 Char.isDigit (ds ++ ';' :: rest) = _ :=
    codePoint?_append hne hd rfl rest
  have ha : Text.after? "&#" ('&' :: '#' :: (ds ++ ';' :: rest)) = some (ds ++ ';' :: rest) := rfl
  have hx : ∀ x : Char, x.isDigit = false → ∀ t, ds ++ ';' :: rest ≠ x :: t := by
    rintro x hx t ht
    cases ds with
    | nil => exact hne rfl
    | cons d ds =>
      have hdigit := hd d List.mem_cons_self
      rw [(List.cons.inj ht).1, hx] at hdigit
      cases hdigit
  simp only [charRef?, ha, Option.bind_eq_bind, Option.bind_some]
  split
  · rename_i h
    exact absurd h (hx 'x' rfl _)
  · rename_i h
    exact absurd h (hx 'X' rfl _)
  · rw [hp, Option.bind_some, hn, scalar?_toNat]
    rfl

theorem charRef?_hexadecimal_append {x : Char} {ds : Text} (hx : x = 'x' ∨ x = 'X')
    (hne : ds ≠ []) (hd : ∀ d ∈ ds, Text.isHexDigit d) (hn : Text.numberOf 16 ds = c.toNat)
    (rest : Text) : charRef? ('&' :: '#' :: x :: (ds ++ ';' :: rest)) = some ([c], rest) := by
  have hp : codePoint? 16 Text.isHexDigit (ds ++ ';' :: rest) = _ :=
    codePoint?_append hne hd rfl rest
  have ha : Text.after? "&#" ('&' :: '#' :: x :: (ds ++ ';' :: rest)) =
      some (x :: (ds ++ ';' :: rest)) := rfl
  simp only [charRef?, ha, Option.bind_eq_bind, Option.bind_some]
  rcases hx with rfl | rfl
  all_goals
    change (codePoint? 16 Text.isHexDigit (ds ++ ';' :: rest)).bind _ = _
    rw [hp, Option.bind_some, hn, scalar?_toNat]
    rfl

theorem token?_append {w : Text} (h : t.Writes w) (rest : Text) :
    token? (w ++ rest) = some (t, rest) := by
  cases h with
  | @plain c hc =>
    have hnum : numericToken? (c :: rest) = none :=
      numericToken?_eq_none_iff.2 (onlyAt_charRef? c rest hc)
    have hname : namedToken? (c :: rest) = none :=
      List.findSome?_eq_none_iff.2 fun p _ =>
        congrArg (Option.map _) (Text.after?_cons_of_ne hc)
    rw [List.singleton_append, token?, hnum, hname]
    rfl
  | named hc =>
    rw [token?, numericToken?_eq_none_iff.2 (charRef?_entity hc), namedToken?_entity_append hc]
    rfl
  | decimal hne hd hn =>
    have hr := charRef?_decimal_append hne hd hn rest
    rw [token?, numericToken?]
    simp [hr]
  | hexadecimal hx hne hd hn =>
    have hr := charRef?_hexadecimal_append hx hne hd hn rest
    rw [token?, numericToken?]
    simp [hr]

theorem Token.Writes.ne_nil {w : Text} (h : t.Writes w) : w ≠ [] := by
  cases h <;> exact List.cons_ne_nil _ _

theorem tokens_flatMap {l : List (Token × Text)} (h : ∀ p ∈ l, p.1.Writes p.2) :
    tokens (l.flatMap Prod.snd) = l.map Prod.fst := by
  induction l with
  | nil => exact tokens_nil
  | cons p l ih =>
    obtain ⟨hp, hl⟩ := List.forall_mem_cons.1 h
    have hlt : (l.flatMap Prod.snd).length < (p.2 ++ l.flatMap Prod.snd).length := by
      have hpos := List.length_pos_iff.2 hp.ne_nil
      rw [List.length_append]
      omega
    rw [List.flatMap_cons, tokens_of_token? (token?_append hp _) hlt, ih hl, List.map_cons]

end Writing

section Escapes

def escapeToken (c : Char) : Token := if (entities.lookup c).isSome then .named c else .plain c

@[simp] theorem char_escapeToken (c : Char) : (escapeToken c).char = c := by
  unfold escapeToken
  split <;> rfl

theorem writes_escapeChar (c : Char) : (escapeToken c).Writes (escapeChar c) := by
  rw [escapeToken]
  cases h : entities.lookup c with
  | none =>
    rw [escapeChar_of_none h]
    refine .plain ?_
    rintro rfl
    cases h
  | some n =>
    rw [escapeChar_of_some h]
    exact .named h

@[simp] theorem not_spellsName_map_escapeToken (s : Text) : ¬ SpellsName (s.map escapeToken) := by
  rintro ⟨p, -, h⟩
  have hmem : some '&' ∈ (s.map escapeToken).map Token.nameless? :=
    h.subset (List.mem_map.2 ⟨'&', List.mem_cons_self, rfl⟩)
  obtain ⟨t, ht, hamp⟩ := List.mem_map.1 hmem
  obtain ⟨c, -, rfl⟩ := List.mem_map.1 ht
  unfold escapeToken at hamp
  split at hamp
  · cases hamp
  · rename_i hc
    cases hamp
    exact hc rfl

@[simp] theorem decode_escape (s : Text) : decode (escape s) = s := by
  have hl : ∀ p ∈ s.map fun c => (escapeToken c, escapeChar c), p.1.Writes p.2 :=
    List.forall_mem_map.2 fun c _ => writes_escapeChar c
  have ht : tokens (escape s) = s.map escapeToken := by
    have h := tokens_flatMap hl
    rwa [List.flatMap_map, List.map_map] at h
  have hn : ¬ SpellsName (tokens (escape s)) := ht ▸ not_spellsName_map_escapeToken s
  rw [(decode_eq_iff _).2 hn, decodeOnce, ht, List.map_map]
  exact (List.map_congr_left fun c _ => char_escapeToken c).trans (List.map_id s)

end Escapes

/-- The passes of the decoder replace each reference of a text once, unless characters of the text
and of its numeric references spell a name in a row. However the characters of a text are written,
reading each token once gives the text back; the passes do so under the same condition. -/
theorem decode_eq_decodeOnce_iff (s : Text) :
    (decode s = decodeOnce s ↔ ¬ SpellsName (tokens s)) ∧
      ∀ l : List (Token × Text), (∀ p ∈ l, p.1.Writes p.2) → s = l.flatMap Prod.snd →
        decodeOnce s = l.map (·.1.char) ∧
          (decode s = l.map (·.1.char) ↔ ¬ SpellsName (l.map Prod.fst)) := by
  refine ⟨decode_eq_iff s, ?_⟩
  rintro l hl rfl
  have ht := tokens_flatMap hl
  have honce : decodeOnce (l.flatMap Prod.snd) = l.map (·.1.char) := by
    rw [decodeOnce, ht, List.map_map]
    rfl
  refine ⟨honce, ?_⟩
  rw [← honce, ← ht]
  exact decode_eq_iff _

/-- The letters of a name may follow an ampersand that is written by name. -/
theorem decode_eq_decodeOnce_of_named :
    let l : List (Token × Text) :=
      [(.plain '<', "<"), (.named '&', "&amp;"), (.plain 'l', "l"), (.numeric 't', "&#116;"),
        (.plain ';', ";"), (.numeric '&', "&#x26;"), (.named '"', "&quot;")]
    (∀ p ∈ l, p.1.Writes p.2) ∧ decodeOnce (l.flatMap Prod.snd) = "<&lt;&\"".toList ∧
      decode (l.flatMap Prod.snd) = "<&lt;&\"".toList := by
  intro l
  have hl : ∀ p ∈ l, p.1.Writes p.2 := by
    simp only [l, List.forall_mem_cons]
    refine ⟨.plain (by decide), .named (n := "amp") rfl, .plain (by decide),
      @Token.Writes.decimal 't' "116" (by decide) (List.all_eq_true.1 rfl) (by decide),
      .plain (by decide),
      @Token.Writes.hexadecimal '&' 'x' "26" (.inl rfl) (by decide) (List.all_eq_true.1 rfl)
        (by decide),
      .named (n := "quot") rfl, nofun⟩
  have h := (decode_eq_decodeOnce_iff (l.flatMap Prod.snd)).2 l hl rfl
  exact ⟨hl, h.1, h.2.2 (by decide)⟩

/-- An ampersand written by number and the text behind it are taken for a reference. -/
theorem numeric_ampersand_read_twice :
    decode "&#38;lt;" = "<".toList ∧ decodeOnce "&#38;lt;" = "&lt;".toList := by
  decide +kernel

end ApiBook.Xml
