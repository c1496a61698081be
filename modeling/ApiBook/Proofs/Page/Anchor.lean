import Mathlib.Data.List.Nodup
import ApiBook.Proofs.Library.WellFormed
import ApiBook.Proofs.Page.Index

/-! # Links to members

The index of a page links to each member by the slug of its name. Names that differ only in what a
slug leaves out lead to one anchor, as two sources of members easily give them.
-/

namespace ApiBook

namespace Text

variable {c : Char} {s : Text}

theorem forall_ascii {P : Char → Prop} (h : ∀ n < 128, P (Char.ofNat n)) (hc : c.toNat < 128) :
    P c := by
  rw [← Char.ofNat_toNat c]
  exact h c.toNat hc

theorem lowerFrom_of_ascii (h : ∀ c ∈ s, c.toNat < 128) (before : Text) :
    lowerFrom before s = s.map Char.toLower := by
  induction s generalizing before with
  | nil => rfl
  | cons c s ih =>
    obtain ⟨hc, hs⟩ := List.forall_mem_cons.1 h
    have hsigma : c ≠ 'Σ' := by
      rintro rfl
      exact absurd hc (by decide)
    rw [lowerFrom, if_neg hsigma, lowerChar, if_pos hc, ih hs, List.map_cons, List.singleton_append]

end Text

namespace Page

variable {c : Char} {s : Text}

/-- What an ASCII character adds to a slug: letters in lower case, digits, hyphens and underscores
as they are, and a hyphen for a space. -/
def asciiSlugChar? (c : Char) : Option Char :=
  if c.isAlphanum || c == '-' || c == '_' then some c.toLower
  else if c = ' ' then some '-' else none

theorem slugChar_eq (hc : c.toNat < 128) :
    (if isSlugChar c.toLower then some (if c.toLower = ' ' then '-' else c.toLower) else none) =
      asciiSlugChar? c :=
  Text.forall_ascii (P := fun c => (if isSlugChar c.toLower then
    some (if c.toLower = ' ' then '-' else c.toLower) else none) = asciiSlugChar? c)
    (by decide +kernel) hc

theorem slug_of_ascii (h : ∀ c ∈ s, c.toNat < 128) : slug s = s.filterMap asciiSlugChar? := by
  rw [slug, Text.lower, Text.lowerFrom_of_ascii h]
  induction s with
  | nil => rfl
  | cons c s ih =>
    obtain ⟨hc, hs⟩ := List.forall_mem_cons.1 h
    have hchar := slugChar_eq hc
    rw [List.map_cons, List.filter_cons]
    split
    · rename_i hslug
      rw [if_pos hslug] at hchar
      rw [List.map_cons, List.filterMap_cons_some hchar.symm, ih hs]
    · rename_i hslug
      rw [if_neg hslug] at hchar
      rw [List.filterMap_cons_none hchar.symm, ih hs]

namespace Markdown

variable {t : TypeDoc} {m : Member}

def memberLinks (t : TypeDoc) : List Link :=
  t.members.map fun m => ⟨m.name, "#" ++ slug m.name, []⟩

theorem anchorItem_eq (s : Text) :
    anchorItem s ++ ['\n'] = Link.print ⟨s, "#" ++ slug s, []⟩ := by
  unfold anchorItem anchorLink Link.print
  dsimp only
  generalize slug s = target
  simp

theorem intercalate_append {sep : Text} {ls ls' : List Text} (h : ls' ≠ []) :
    List.intercalate sep (ls ++ ls') = ls.flatMap (· ++ sep) ++ List.intercalate sep ls' := by
  induction ls with
  | nil => rfl
  | cons l ls ih =>
    rw [List.cons_append, List.intercalate_cons_of_ne_nil (by simp [h]), ih, List.flatMap_cons]
    simp only [List.append_assoc]

def headLines (t : TypeDoc) : List Text :=
  [heading "#" t.name] ++
  (if t.scope = [] then [] else ["_Namespace: " ++ t.scope ++ "_\n"]) ++
  passage t.summary

def memberLines (t : TypeDoc) : List Text :=
  memberSection "Properties" t.properties ++
  memberSection "Events" t.events ++
  memberSection "Methods" t.methods

theorem typeLines_eq (t : TypeDoc) :
    typeLines t = headLines t ++ (contents t ++ memberLines t) := by
  simp only [typeLines, headLines, memberLines, List.append_assoc]

/-- The page of a type with members holds the printed entries as they are. -/
theorem typePage_eq (h : t.members ≠ []) : ∃ above below, typePage t =
    above ++ ("## Index\n\n" ++ ((memberLinks t).flatMap Link.print ++ below)) := by
  have hlines : typeLines t = (headLines t ++ [heading "##" "Index"] ++
      t.members.map fun m => anchorItem m.name) ++ [] :: memberLines t := by
    rw [typeLines_eq, contents, if_neg h]
    simp
  have hlinks : (t.members.map fun m => anchorItem m.name).flatMap (· ++ ['\n']) =
      (memberLinks t).flatMap Link.print := by
    rw [memberLinks, List.flatMap_map, List.flatMap_map]
    exact congrArg t.members.flatMap (funext fun m => anchorItem_eq m.name)
  refine ⟨(headLines t).flatMap (· ++ ['\n']), List.intercalate ['\n'] ([] :: memberLines t), ?_⟩
  have hpage : typePage t = List.intercalate ['\n'] (typeLines t) := rfl
  have hindex : [heading "##" "Index"].flatMap (· ++ ['\n']) = ("## Index\n\n" : Text) := rfl
  rw [hpage, hlines, intercalate_append (List.cons_ne_nil _ _), List.flatMap_append,
    List.flatMap_append, hlinks, hindex, List.append_assoc, List.append_assoc]

@[simp] theorem head?_member (m : Member) : (member m).head? = some (heading "###" m.name) := rfl

theorem heading_mem_memberSection {title : Text} {ms : List Member} (h : m ∈ ms) :
    heading "###" m.name ∈ memberSection title ms := by
  rw [memberSection, if_neg (List.ne_nil_of_mem h)]
  exact List.mem_cons_of_mem _ (List.mem_flatMap.2 ⟨m, h, List.mem_of_head? (head?_member m)⟩)

theorem heading_mem_typeLines (h : m ∈ t.members) : heading "###" m.name ∈ typeLines t := by
  rw [typeLines_eq]
  refine List.mem_append_right _ (List.mem_append_right _ ?_)
  cases hd : m.detail with
  | property d =>
    have hm : m ∈ t.properties := List.mem_filter.2 ⟨h, by rw [hd]; rfl⟩
    exact List.mem_append_left _ (List.mem_append_left _ (heading_mem_memberSection hm))
  | event ps =>
    have hm : m ∈ t.events := List.mem_filter.2 ⟨h, by rw [hd]; rfl⟩
    exact List.mem_append_left _ (List.mem_append_right _ (heading_mem_memberSection hm))
  | method ps r =>
    have hm : m ∈ t.methods := List.mem_filter.2 ⟨h, by rw [hd]; rfl⟩
    exact List.mem_append_right _ (heading_mem_memberSection hm)

theorem nodup_targets_iff :
    ((memberLinks t).map (·.target)).Nodup ↔ (t.members.map fun m => slug m.name).Nodup := by
  have htargets : (memberLinks t).map (·.target) =
      (t.members.map fun m => slug m.name).map ("#".toList ++ ·) := by
    rw [memberLinks, List.map_map, List.map_map]
    rfl
  rw [htargets, List.nodup_map_iff (List.append_right_injective _)]

/-- The index of a page has an entry for each member in the order of the members, and the page has
a heading for each. The entries lead to different headings if and only if no two names have one
slug; names in ASCII have one slug if they agree but for case, spaces and punctuation. -/
theorem index_links_members (steps : List Library.Step) {t : TypeDoc}
    (ht : t ∈ (Library.empty.after steps).types) :
    (t.members ≠ [] → ∃ above below, typePage t =
      above ++ ("## Index\n\n" ++ ((memberLinks t).flatMap Link.print ++ below))) ∧
    (∀ m ∈ t.members, heading "###" m.name ∈ typeLines t) ∧
    (((memberLinks t).map (·.target)).Nodup ↔
      ∀ m ∈ t.members, ∀ m' ∈ t.members, slug m.name = slug m'.name → m.name = m'.name) ∧
    ((∀ m ∈ t.members, ∀ c ∈ m.name, c.toNat < 128) →
      (((memberLinks t).map (·.target)).Nodup ↔
        (t.members.map fun m => m.name.filterMap asciiSlugChar?).Nodup)) := by
  obtain ⟨⟨n, t⟩, he, rfl⟩ := List.mem_map.1 ht
  have hnames := (Library.wellFormed_empty_after steps _ he).nodup
  refine ⟨typePage_eq, fun m => heading_mem_typeLines, ?_, fun hascii => ?_⟩
  · rw [nodup_targets_iff, List.nodup_map_iff_inj_on hnames.of_map]
    constructor
    · intro h m hm m' hm' hslug
      rw [h m hm m' hm' hslug]
    · intro h m hm m' hm' hslug
      exact List.inj_on_of_nodup_map hnames hm hm' (h m hm m' hm' hslug)
  · have hslugs : (t.members.map fun m => slug m.name) =
        t.members.map fun m => m.name.filterMap asciiSlugChar? :=
      List.map_congr_left fun m hm => slug_of_ascii (hascii m hm)
    rw [nodup_targets_iff, hslugs]

/-- A property and a method with two anchors. -/
theorem index_links_members_of_resize :
    let steps : List Library.Step := [.add [.ofId "P:N.A.Width"],
      .merge "N.A" (Script.Document.ofLines ["// @method resize", "r();"])]
    ∃ t ∈ (Library.empty.after steps).types, (∀ m ∈ t.members, ∀ c ∈ m.name, c.toNat < 128) ∧
      (memberLinks t).length = 2 ∧ ((memberLinks t).map (·.target)).Nodup := by
  intro steps
  let t : TypeDoc := { fullName := "N.A", name := "A", scope := "N", members :=
    [{ name := "Width", origin := .xml, detail := .property none },
      { name := "resize", origin := .client, detail := .method [] none }] }
  have ht : t ∈ (Library.empty.after steps).types := by decide +kernel
  have hall : (t.members.all fun m => m.name.all fun c => c.toNat < 128) = true := rfl
  have hascii : ∀ m ∈ t.members, ∀ c ∈ m.name, c.toNat < 128 := by
    simpa only [List.all_eq_true, decide_eq_true_eq] using hall
  obtain ⟨-, -, -, hiff⟩ := index_links_members steps ht
  exact ⟨t, ht, hascii, rfl, (hiff hascii).2 (by decide +kernel)⟩

/-- One property in two spellings, from the XML file and from a script. -/
theorem one_anchor_of_two_spellings :
    let steps : List Library.Step := [.add [.ofId "P:N.A.Width"],
      .merge "N.A" (Script.Document.ofLines ["// @property width", "w();"])]
    ∃ t ∈ (Library.empty.after steps).types, (t.members.map (·.name)).Nodup ∧
      ¬ ((memberLinks t).map (·.target)).Nodup := by
  decide +kernel

end Markdown

end Page

end ApiBook
