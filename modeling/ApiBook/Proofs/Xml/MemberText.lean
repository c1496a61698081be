import ApiBook.Proofs.Xml.Source
import ApiBook.Proofs.Xml.Spelling

/-! # The texts of members

A `member` element is read from its own text alone, whatever stands behind it. A file of whole
elements with other text between them holds just these elements.
-/

namespace ApiBook.Xml

variable {α β : Type} {c : Char} {e g s t rest : Text} {r : Record}

/-- A reader that takes something and decides on that alone: it takes the same in front of any
other text. -/
def Local (read : Text → Option (α × Text)) : Prop :=
  ∀ s a rest, read s = some (a, rest) →
    ∃ e, e ≠ [] ∧ s = e ++ rest ∧ ∀ t, read (e ++ t) = some (a, t)

namespace Local

variable {read : Text → Option (α × Text)} {next : α → Text → Option (β × Text)}

theorem keyword {p : Text} (hp : p ≠ []) :
    Local fun s => (Text.after? p s).map fun r => ((), r) := by
  intro s a rest h
  obtain ⟨r, hr, he⟩ := Option.map_eq_some_iff.1 h
  obtain ⟨-, rfl⟩ := Prod.mk.inj he
  refine ⟨p, hp, Text.after?_eq_some_iff.1 hr, fun t => ?_⟩
  have hread : Text.after? p (p ++ t) = some t := Text.after?_append p t
  exact congrArg (Option.map fun r => ((), r)) hread

theorem bind (h : Local read) (hn : ∀ a, Local (next a)) :
    Local fun s => (read s).bind fun p => next p.1 p.2 := by
  intro s b rest hs
  obtain ⟨⟨a, s'⟩, ha, hb⟩ := Option.bind_eq_some_iff.1 hs
  obtain ⟨e, he, rfl, hread⟩ := h s a s' ha
  obtain ⟨e', -, rfl, hnext⟩ := hn a s' b rest hb
  refine ⟨e ++ e', by simp [he], (List.append_assoc e e' rest).symm, fun t => ?_⟩
  dsimp only
  rw [List.append_assoc, hread]
  exact hnext t

theorem map (h : Local read) (f : α → β) :
    Local fun s => (read s).map fun p => (f p.1, p.2) := by
  intro s b rest hs
  obtain ⟨⟨a, s'⟩, ha, hb⟩ := Option.map_eq_some_iff.1 hs
  obtain ⟨rfl, rfl⟩ := Prod.mk.inj hb
  obtain ⟨e, he, rfl, hread⟩ := h s a s' ha
  exact ⟨e, he, rfl, fun t => congrArg (Option.map fun p => (f p.1, p.2)) (hread t)⟩

theorem skipWhite (h : Local read) : Local fun s => read (Xml.skipWhite s) := by
  intro s a rest hs
  obtain ⟨w, s, rfl, hw, hstart⟩ := Text.exists_span Text.isWhite s
  have hskip {t : Text} (ht : Text.StartsNot Text.isWhite t) : Xml.skipWhite (w ++ t) = t :=
    Text.dropWhile_append hw ht
  dsimp only at hs
  rw [hskip hstart] at hs
  obtain ⟨e, he, rfl, hread⟩ := h s a rest hs
  refine ⟨w ++ e, by simp [he], (List.append_assoc w e rest).symm, fun t => ?_⟩
  have hstart' : Text.StartsNot Text.isWhite (e ++ t) := by
    cases e with
    | nil => exact absurd rfl he
    | cons c e => exact hstart
  dsimp only
  rw [List.append_assoc, hskip hstart', hread]

theorem or {read' : Text → Option (α × Text)} (h : Local read) (h' : Local read')
    (hne : ∀ s p, read' s = some p → read s = none) : Local fun s => (read s).or (read' s) := by
  intro s a rest hs
  rcases Option.or_eq_some_iff.1 hs with hs | ⟨-, hs⟩
  · obtain ⟨e, he, rfl, hread⟩ := h s a rest hs
    refine ⟨e, he, rfl, fun t => ?_⟩
    dsimp only
    rw [hread, Option.some_or]
  · obtain ⟨e, he, rfl, hread⟩ := h' s a rest hs
    refine ⟨e, he, rfl, fun t => ?_⟩
    dsimp only
    rw [hne _ _ (hread t), Option.none_or, hread]

theorem congr {read' : Text → Option (α × Text)} (h : Local read) (he : ∀ s, read' s = read s) :
    Local read' := (funext he : read' = read) ▸ h

end Local

section Members

def white? : Text → Option (Unit × Text)
  | c :: cs => if Text.isWhite c then some ((), cs) else none
  | [] => none

theorem local_white? : Local white? := by
  intro s a rest h
  cases s with
  | nil => cases h
  | cons c s =>
    rw [white?] at h
    split at h
    · rename_i hc
      obtain ⟨-, rfl⟩ := Prod.mk.inj (Option.some.inj h)
      exact ⟨[c], by simp, rfl, fun t => if_pos hc⟩
    · cases h

theorem someWhite?_eq (s : Text) :
    someWhite? s = (white? s).map fun p => skipWhite p.2 := by
  cases s with
  | nil => rfl
  | cons c s =>
    rw [someWhite?, white?]
    split <;> rfl

theorem local_quoted? : Local quoted? := by
  intro s v rest h
  rw [quoted?_eq] at h
  obtain ⟨s', hs', hc⟩ := Option.bind_eq_some_iff.1 h
  obtain ⟨hs, hv⟩ := Text.cut?_eq_some hc
  refine ⟨'"' :: (v ++ ['"']), by simp, ?_, fun t => ?_⟩
  · rw [Text.after?_eq_some_iff.1 hs', hs]
    simp
  · have hread : quoted? ('"' :: (v ++ '"' :: t)) = some (v, t) := Text.cut?_append hv
    simpa using hread

theorem local_equalsQuoted? : Local equalsQuoted? := by
  have h : Local fun s => ((Text.after? ['='] (skipWhite s)).map fun r => ((), r)).bind
      fun p => quoted? (skipWhite p.2) :=
    ((Local.keyword (by simp)).bind fun _ => local_quoted?.skipWhite).skipWhite
  refine h.congr fun s => ?_
  rw [equalsQuoted?_eq]
  cases Text.after? ['='] (skipWhite s) <;> rfl

theorem memberEnd?_eq_some_iff : memberEnd? s = some rest ↔
    ∃ w, (∀ c ∈ w, Text.isWhite c = true) ∧ s = ("</member" : Text) ++ w ++ '>' :: rest := by
  constructor
  · intro h
    obtain ⟨s', hs', h⟩ := Option.bind_eq_some_iff.1 h
    obtain ⟨w, t, rfl, hw, ht⟩ := Text.exists_span Text.isWhite s'
    have hskip : skipWhite (w ++ t) = t := Text.dropWhile_append hw ht
    rw [hskip] at h
    obtain rfl : t = '>' :: rest := Text.after?_eq_some_iff.1 h
    refine ⟨w, hw, ?_⟩
    rw [List.append_assoc]
    exact Text.after?_eq_some_iff.1 hs'
  · rintro ⟨w, hw, rfl⟩
    have hskip : skipWhite (w ++ '>' :: rest) = '>' :: rest :=
      Text.dropWhile_append hw (.cons rfl rest)
    rw [memberEnd?, List.append_assoc, Text.after?_append, Option.bind_some, hskip]
    rfl

theorem memberEnd?_eq_none (h : memberEnd? (s ++ '>' :: rest) = none) (t : Text) :
    memberEnd? (s ++ '>' :: t) = none := by
  refine Option.eq_none_iff_forall_ne_some.2 fun r hr => ?_
  obtain ⟨w, hw, hs⟩ := memberEnd?_eq_some_iff.1 hr
  have hend : '>' ∉ ("</member" : Text) ++ w := by
    have hwhite : '>' ∉ w := fun hc => absurd (hw _ hc) (by decide)
    simpa using hwhite
  suffices ∃ r', s ++ '>' :: rest = ("</member" : Text) ++ w ++ '>' :: r' by
    obtain ⟨r', hr'⟩ := this
    have hsome := memberEnd?_eq_some_iff.2 ⟨w, hw, hr'⟩
    rw [h] at hsome
    cases hsome
  rcases List.append_eq_append_iff.1 hs with ⟨x, hx, ht⟩ | ⟨x, hx, ht⟩
  · cases x with
    | nil => exact ⟨rest, by rw [hx, List.append_nil]⟩
    | cons c x =>
      obtain ⟨rfl, -⟩ := List.cons.inj ht
      exact absurd (hx ▸ List.mem_append_right s List.mem_cons_self) hend
  · cases x with
    | nil => exact ⟨rest, by rw [hx, List.append_nil]⟩
    | cons c x =>
      obtain ⟨rfl, -⟩ := List.cons.inj ht
      exact ⟨x ++ '>' :: rest, by rw [hx, List.append_assoc, List.cons_append]⟩

/-- A body ends with its end tag, and no end tag of another text begins in front of it. -/
theorem memberBody?_eq_some {body : Text} (h : memberBody? s = some (body, rest)) :
    ∃ e, s = e ++ '>' :: rest ∧ ∀ t, memberBody? (e ++ '>' :: t) = some (body, t) := by
  induction s generalizing body with
  | nil => cases h
  | cons c s ih =>
    rw [memberBody?_cons, Option.or_eq_some_iff] at h
    rcases h with h | ⟨hend, h⟩
    · obtain ⟨r, hr, h⟩ := Option.map_eq_some_iff.1 h
      obtain ⟨rfl, rfl⟩ := Prod.mk.inj h
      obtain ⟨w, hw, hs⟩ := memberEnd?_eq_some_iff.1 hr
      exact ⟨("</member" : Text) ++ w, hs, fun t =>
        memberBody?_of_some (memberEnd?_eq_some_iff.2 ⟨w, hw, rfl⟩)⟩
    · obtain ⟨⟨body, r⟩, hb, h⟩ := Option.map_eq_some_iff.1 h
      obtain ⟨rfl, rfl⟩ := Prod.mk.inj h
      obtain ⟨e, rfl, hread⟩ := ih hb
      refine ⟨c :: e, rfl, fun t => ?_⟩
      have hnone : memberEnd? (c :: (e ++ '>' :: t)) = none :=
        memberEnd?_eq_none (s := c :: e) (Option.map_eq_none_iff.1 hend) t
      rw [List.cons_append, memberBody?_of_none hnone, hread]
      rfl

theorem local_memberBody? : Local memberBody? := by
  intro s body rest h
  obtain ⟨e, rfl, hread⟩ := memberBody?_eq_some h
  refine ⟨e ++ ['>'], by simp, by simp, fun t => ?_⟩
  rw [List.append_assoc]
  exact hread t

/-- The rest of an element behind its id: nothing, or a body. -/
def memberTail? (id s : Text) : Option (Record × Text) :=
  ((Text.after? "/>" s).map fun r => (Record.ofId (decode id), r)).or
    ((Text.after? ">" s).bind fun s => (memberBody? s).map fun p =>
      ({ Record.ofId (decode id) with fragments := elements p.1 }, p.2))

theorem local_memberTail? (id : Text) : Local (memberTail? id) := by
  have hclosed : Local fun s => ((Text.after? "/>" s).map fun r => ((), r)).map fun p =>
      (Record.ofId (decode id), p.2) :=
    (Local.keyword (by simp)).map fun _ => Record.ofId (decode id)
  have hopen : Local fun s => ((Text.after? ">" s).map fun r => ((), r)).bind fun p =>
      (memberBody? p.2).map fun p =>
        ({ Record.ofId (decode id) with fragments := elements p.1 }, p.2) :=
    (Local.keyword (by simp)).bind fun _ => local_memberBody?.map fun body =>
      { Record.ofId (decode id) with fragments := elements body }
  refine (hclosed.or hopen fun s p h => ?_).congr fun s => ?_
  · cases s with
    | nil => rfl
    | cons c s =>
      by_cases hc : c = '/'
      · subst hc
        cases h
      · have hnone : Text.after? "/>" (c :: s) = none := Text.after?_cons_of_ne hc
        rw [hnone]
        rfl
  · rw [memberTail?]
    cases Text.after? "/>" s <;> cases Text.after? ">" s <;> rfl

theorem member?_eq (s : Text) : member? s = (Text.after? "<member" s).bind fun s =>
    (someWhite? s).bind fun s => (Text.after? "name" s).bind fun s =>
      (equalsQuoted? s).bind fun p => memberTail? p.1 (skipWhite p.2) := by
  unfold member? memberTail?
  refine Option.bind_congr fun s _ => Option.bind_congr fun s _ => Option.bind_congr fun s _ =>
    Option.bind_congr fun ⟨id, s⟩ _ => ?_
  dsimp only
  cases Text.after? "/>" (skipWhite s) with
  | some rest => rfl
  | none =>
    refine Option.bind_congr fun s _ => ?_
    cases memberBody? s <;> rfl

/-- A member element is read from its own text alone. -/
theorem local_member? : Local member? := by
  have hname : Local fun s => ((Text.after? "name" s).map fun r => ((), r)).bind fun p =>
      (equalsQuoted? p.2).bind fun p => memberTail? p.1 (skipWhite p.2) :=
    (Local.keyword (by simp)).bind fun _ =>
      local_equalsQuoted?.bind fun id => (local_memberTail? id).skipWhite
  have h : Local fun s => ((Text.after? "<member" s).map fun r => ((), r)).bind fun p =>
      (white? p.2).bind fun p => ((Text.after? "name" (skipWhite p.2)).map fun r => ((), r)).bind
        fun p => (equalsQuoted? p.2).bind fun p => memberTail? p.1 (skipWhite p.2) :=
    (Local.keyword (by simp)).bind fun _ => local_white?.bind fun _ => hname.skipWhite
  refine h.congr fun s => ?_
  simp only [member?_eq, someWhite?_eq, Option.bind_map, Function.comp_def]

end Members

section Files

def memberText? (s : Text) : Option (Text × Text) :=
  (member? s).map fun p => (s.take (s.length - p.2.length), p.2)

def memberTexts (s : Text) : List Text := Text.collect memberText? s

/-- The record of an element. -/
def record? (e : Text) : Option Record := (member? e).map Prod.fst

theorem member?_eq_some (h : member? s = some (r, rest)) :
    ∃ e, e ≠ [] ∧ s = e ++ rest ∧ record? e = some r ∧ memberText? s = some (e, rest) := by
  obtain ⟨e, he, rfl, hread⟩ := local_member? s r rest h
  refine ⟨e, he, rfl, ?_, ?_⟩
  · have halone := hread []
    rw [List.append_nil] at halone
    rw [record?, halone]
    rfl
  · rw [memberText?, h, Option.map_some, List.length_append, Nat.add_sub_cancel,
      List.take_left' rfl]

/-- The records of a file are those of its elements, each read on its own. -/
theorem map_record?_memberTexts (s : Text) :
    (memberTexts s).map record? = (members s).map some := by
  unfold memberTexts members
  fun_induction Text.collect member? s with
  | case1 => simp
  | case2 c s h ih =>
    have hnone : memberText? (c :: s) = none := by rw [memberText?, h, Option.map_none]
    rw [Text.collect_of_none hnone, ih]
  | case3 c s r rest h hl ih =>
    obtain ⟨e, -, -, hr, he⟩ := member?_eq_some h
    rw [Text.collect_of_some he hl, List.map_cons, List.map_cons, hr, ih]
  | case4 c s r rest h hl ih =>
    obtain ⟨e, he, hs, -⟩ := member?_eq_some h
    have hlen := congrArg List.length hs
    have hpos := List.length_pos_iff.2 he
    rw [List.length_cons, List.length_append] at hlen
    omega

theorem members_eq_filterMap (s : Text) : members s = (memberTexts s).filterMap record? := by
  have h := congrArg (List.filterMap id) (map_record?_memberTexts s)
  rw [List.filterMap_map, List.filterMap_map] at h
  simpa using h.symm

/-- No tag of a `member` begins in the text. -/
def silent : Text → Bool
  | [] => true
  | c :: s => ((Text.after? "<member" (c :: s)).bind someWhite?).isNone && silent s

theorem someWhite?_append_eq_none (h : someWhite? s = none) (t : Text) :
    someWhite? (s ++ '<' :: t) = none := by
  cases s with
  | nil => rfl
  | cons c s =>
    rw [someWhite?] at h
    split at h
    · cases h
    · rename_i hc
      exact if_neg hc

/-- Nor does one begin in the text and end in the tag or the end of the file behind it. -/
theorem member?_eq_none (h : silent (c :: g)) (ht : Text.StartsNot (· != '<') t) :
    member? (c :: (g ++ t)) = none := by
  have hg : (Text.after? "<member" (c :: g)).bind someWhite? = none :=
    Option.isNone_iff_eq_none.1 (Bool.and_eq_true _ _ ▸ h).1
  suffices (Text.after? "<member" (c :: (g ++ t))).bind someWhite? = none by
    rw [member?_eq, ← Option.bind_assoc, this]
    rfl
  cases t with
  | nil => rw [List.append_nil, hg]
  | cons d t =>
    have hd : d = '<' := by simpa using ht d rfl
    subst hd
    by_cases hc : c = '<'
    · subst hc
      have hkey (s : Text) : Text.after? "<member" ('<' :: s) = Text.after? "member" s := rfl
      rw [hkey] at hg ⊢
      rw [Text.after?_append_cons (by decide)]
      cases hm : Text.after? "member" g with
      | none => rfl
      | some s =>
        rw [hm] at hg
        exact someWhite?_append_eq_none hg t
    · have hnone : Text.after? "<member" (c :: (g ++ '<' :: t)) = none :=
        Text.after?_cons_of_ne hc
      rw [hnone]
      rfl

theorem memberTexts_silent_append (hg : silent g) (ht : Text.StartsNot (· != '<') t) :
    memberTexts (g ++ t) = memberTexts t := by
  induction g with
  | nil => rfl
  | cons c g ih =>
    have hnone : memberText? (c :: (g ++ t)) = none := by
      rw [memberText?, member?_eq_none hg ht, Option.map_none]
    have hg : silent g := (Bool.and_eq_true _ _ ▸ hg).2
    exact (Text.collect_of_none hnone).trans (ih hg)

def IsMemberText (e : Text) : Prop := (member? e).map Prod.snd = some []

instance (e : Text) : Decidable (IsMemberText e) := inferInstanceAs (Decidable (_ = _))

theorem IsMemberText.exists_cons (h : IsMemberText e) : ∃ s, e = '<' :: s := by
  cases e with
  | nil => cases h
  | cons c e =>
    by_cases hc : c = '<'
    · exact ⟨e, by rw [hc]⟩
    · rw [IsMemberText, onlyAt_member? c e hc] at h
      cases h

theorem memberTexts_cons_append (h : IsMemberText e) (t : Text) :
    memberTexts (e ++ t) = e :: memberTexts t := by
  obtain ⟨⟨r, rest⟩, hr, hrest⟩ := Option.map_eq_some_iff.1 h
  obtain rfl : rest = [] := hrest
  obtain ⟨e', he', heq, hread⟩ := local_member? e r [] hr
  rw [List.append_nil] at heq
  subst heq
  have htext : memberText? (e ++ t) = some (e, t) := by
    rw [memberText?, hread, Option.map_some, List.length_append, Nat.add_sub_cancel,
      List.take_left' rfl]
  cases e with
  | nil => exact absurd rfl he'
  | cons c e => exact Text.collect_of_some htext (by simp)

/-- The elements of a file of whole elements, with other text in front of them and behind each. -/
theorem memberTexts_layout (hg : silent g) (es : List (Text × Text))
    (h : ∀ p ∈ es, IsMemberText p.1 ∧ silent p.2) :
    memberTexts (g ++ es.flatMap fun p => p.1 ++ p.2) = es.map Prod.fst := by
  induction es generalizing g with
  | nil =>
    rw [List.flatMap_nil, memberTexts_silent_append hg .nil]
    exact Text.collect_nil _
  | cons p es ih =>
    obtain ⟨⟨he, hgap⟩, hes⟩ := List.forall_mem_cons.1 h
    obtain ⟨e, he'⟩ := he.exists_cons
    have hstart (t : Text) : Text.StartsNot (· != '<') (p.1 ++ t) := he' ▸ .cons rfl (e ++ t)
    rw [List.flatMap_cons, List.append_assoc, memberTexts_silent_append hg (hstart _),
      memberTexts_cons_append he, ih hgap hes, List.map_cons]

end Files

end ApiBook.Xml
