import ApiBook.Proofs.Xml.Element
import ApiBook.Xml.Document

/-! # Reading printed files

The body of a printed record holds no end tag of a `member`, so records are read back one by one.
-/

namespace ApiBook.Xml

variable {c : Char} {e x y s cs rest : Text} {f : Fragment} {fs : List Fragment}
  {es : List Entry}

section Bodies

def memberEnd? (s : Text) : Option Text :=
  (Text.after? "</member" s).bind fun s => Text.after? ">" (skipWhite s)

theorem memberBody?_of_none (h : memberEnd? (c :: cs) = none) :
    memberBody? (c :: cs) = (memberBody? cs).map fun p => (c :: p.1, p.2) := by
  rw [memberEnd?] at h
  rw [memberBody?, h]

theorem memberBody?_of_some (h : memberEnd? (c :: cs) = some rest) :
    memberBody? (c :: cs) = some ([], rest) := by
  rw [memberEnd?] at h
  rw [memberBody?, h]

theorem onlyAt_memberEnd? : Text.OnlyAt '<' memberEnd? := fun c cs h => by
  have ha : Text.after? "</member" (c :: cs) = none := Text.after?_cons_of_ne h
  rw [memberEnd?, ha]
  rfl

/-- No end tag of a `member` begins in the text, whatever stands behind it. -/
def InBody (x : Text) : Prop :=
  ∀ s, memberBody? (x ++ s) = (memberBody? s).map fun p => (x ++ p.1, p.2)

namespace InBody

theorem nil : InBody [] := fun s => by
  cases h : memberBody? s <;> simp [h]

theorem cons (h : ∀ s, memberEnd? (c :: (x ++ s)) = none) (hx : InBody x) : InBody (c :: x) :=
  fun s => by
    rw [List.cons_append, memberBody?_of_none (h s), hx, Option.map_map]
    rfl

theorem of_notMem (h : '<' ∉ x) : InBody x := by
  induction x with
  | nil => exact .nil
  | cons c x ih =>
    have hc : c ≠ '<' := (List.ne_of_not_mem_cons h).symm
    exact .cons (fun s => onlyAt_memberEnd? c _ hc) (ih (List.not_mem_of_not_mem_cons h))

theorem append (hx : InBody x) (hy : InBody y) : InBody (x ++ y) := fun s => by
  rw [List.append_assoc, hx, hy, Option.map_map]
  congr 1
  funext p
  exact congrArg (·, p.2) (List.append_assoc x y p.1).symm

theorem flatMap {α : Type} {g : α → Text} {l : List α} (h : ∀ a ∈ l, InBody (g a)) :
    InBody (l.flatMap g) := by
  induction l with
  | nil => exact .nil
  | cons a l ih =>
    rw [List.flatMap_cons]
    exact (h a List.mem_cons_self).append (ih fun b hb => h b (List.mem_cons_of_mem a hb))

end InBody

end Bodies

section Fragments

theorem memberEnd?_endTag_append (he : IsElementName e) (hne : e ≠ "member".toList) (s : Text) :
    memberEnd? (endTag e ++ s) = none := by
  have hs : endTag e ++ s = ("</" : Text) ++ (e ++ '>' :: s) := by simp [endTag]
  refine Option.eq_none_iff_forall_ne_some.2 fun r hr => ?_
  obtain ⟨t, ht, hr⟩ := Option.bind_eq_some_iff.1 hr
  rw [Text.after?_eq_some_iff, hs] at ht
  have ht : e ++ '>' :: s = ("member" : Text) ++ t := by simpa using ht
  rcases List.append_eq_append_iff.1 ht with ⟨a, ha, hb⟩ | ⟨a, ha, hb⟩
  · cases a with
    | nil => exact hne (by simpa using ha.symm)
    | cons d a =>
      obtain ⟨rfl, -⟩ := List.cons.inj hb
      have hm : '>' ∈ ("member" : Text) := ha ▸ List.mem_append_right e List.mem_cons_self
      exact absurd hm (by decide)
  · cases a with
    | nil => exact hne (by simpa using ha)
    | cons d a =>
      have hd : isElementChar d = true :=
        isElementChar_of_mem he (ha ▸ List.mem_append_right _ List.mem_cons_self)
      have hw : skipWhite t = t := by
        rw [hb]
        exact (Text.StartsNot.cons (isWhite_of_isElementChar hd) _).dropWhile_eq
      have hg : d ≠ '>' := by
        rintro rfl
        exact absurd hd (by decide)
      rw [hw, hb] at hr
      have hnone : Text.after? ">" (d :: (a ++ '>' :: s)) = none := Text.after?_cons_of_ne hg
      rw [List.cons_append, hnone] at hr
      cases hr

theorem memberEnd?_startTag_append (he : IsElementName e) (s : Text) :
    memberEnd? ('<' :: (e ++ s)) = none := by
  cases e with
  | nil => exact he.elim
  | cons c e =>
    have hc : c ≠ '/' := by
      rintro rfl
      exact absurd he.1 (by decide)
    have h : Text.after? ("/member" : Text) (c :: (e ++ s)) = none := Text.after?_cons_of_ne hc
    have ha : Text.after? "</member" ('<' :: c :: (e ++ s)) = none := h
    rw [memberEnd?, List.cons_append, ha]
    rfl

theorem inBody_printFragment (hf : IsElementName f.element) (hne : f.element ≠ "member".toList) :
    InBody (printFragment f) := by
  have he : '<' ∉ f.element := fun h => absurd (isElementChar_of_mem hf h) (by decide)
  have hn : '<' ∉ printName f.name := notMem_printName (.inl rfl) f.name
  have ht : '<' ∉ escape f.text := notMem_escape rfl (by decide) f.text
  have hopen : InBody ('<' :: (f.element ++ (printName f.name ++ '>' :: escape f.text))) := by
    refine .cons (fun s => ?_) (.of_notMem (by simp [he, hn, ht]))
    rw [List.append_assoc]
    exact memberEnd?_startTag_append hf _
  have hend : InBody ('<' :: '/' :: (f.element ++ ['>'])) := by
    refine .cons (fun s => ?_) (.of_notMem (by simp [he]))
    exact memberEnd?_endTag_append hf hne s
  have h := hopen.append hend
  rwa [show _ ++ _ = printFragment f by simp [printFragment]] at h

end Fragments

section Entries

def Entry.toRecord (e : Entry) : Record :=
  { Record.ofId e.id with fragments := e.fragments.map normalizeText }

theorem printEntry_append (e : Entry) (rest : Text) :
    printEntry e ++ rest = ("<member" : Text) ++ ' ' :: (("name" : Text) ++ '=' :: '"' ::
      (escape e.id ++ '"' :: ((">" : Text) ++
        (e.fragments.flatMap printFragment ++ (("</member>" : Text) ++ rest))))) := by
  unfold printEntry
  simp

theorem someWhite?_cons (hc : Text.isWhite c = true) (hs : Text.StartsNot Text.isWhite s) :
    someWhite? (c :: s) = some s := by
  rw [someWhite?, if_pos hc, skipWhite, Text.trimStart, hs.dropWhile_eq]

@[simp] theorem equalsQuoted?_escape (s rest : Text) :
    equalsQuoted? ('=' :: '"' :: (escape s ++ '"' :: rest)) = some (escape s, rest) :=
  Text.cut?_append (notMem_escape rfl (by decide) s)

theorem memberBody?_flatMap_printFragment (h : ∀ f ∈ fs, IsElementName f.element ∧
    f.element ≠ "member".toList) (rest : Text) :
    memberBody? (fs.flatMap printFragment ++ (("</member>" : Text) ++ rest)) =
      some (fs.flatMap printFragment, rest) := by
  have hin : InBody (fs.flatMap printFragment) :=
    .flatMap fun f hf => inBody_printFragment (h f hf).1 (h f hf).2
  have hend : memberBody? (("</member>" : Text) ++ rest) = some ([], rest) :=
    memberBody?_of_some rfl
  rw [hin, hend, Option.map_some, List.append_nil]

theorem member?_printEntry_append {e : Entry} (he : e.Printable) (rest : Text) :
    member? (printEntry e ++ rest) = some (e.toRecord, rest) := by
  have hname (s : Text) : Text.StartsNot Text.isWhite (("name" : Text) ++ s) := .cons rfl _
  have hskip (s : Text) : skipWhite ((">" : Text) ++ s) = (">" : Text) ++ s :=
    (Text.StartsNot.cons (c := '>') (p := Text.isWhite) rfl s).dropWhile_eq
  have hclosed (s : Text) : Text.after? "/>" ((">" : Text) ++ s) = none := rfl
  rw [printEntry_append]
  simp only [member?, Text.after?_append, Option.bind_eq_bind, Option.bind_some,
    someWhite?_cons (c := ' ') rfl (hname _), equalsQuoted?_escape, hskip, hclosed,
    memberBody?_flatMap_printFragment he, decode_escape,
    elements_flatMap_printFragment fun f hf => (he f hf).1]
  rfl

theorem onlyAt_member? : Text.OnlyAt '<' member? := fun c cs h => by
  have ha : Text.after? "<member" (c :: cs) = none := Text.after?_cons_of_ne h
  rw [member?, ha]
  rfl

end Entries

end ApiBook.Xml
