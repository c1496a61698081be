import ApiBook.Page.Wiki
import ApiBook.Proofs.Text.Spans

/-! # Lines of wiki pages

Below its heading and its summary a page has one line for each kind of members, for each member and
for each text about a parameter or a result. Summaries and descriptions may be of any form, since a
line takes only their words.
-/

namespace ApiBook

namespace Text

variable {c : Char}

theorem notMem_oneLine (hw : isWhite c = true) (hc : c ≠ ' ') (s : Text) : c ∉ oneLine s := by
  refine notMem_intercalate (by simpa using hc) fun w h hm => ?_
  have hword := forall_mem_fields isWhite s w (List.mem_filter.1 h).1 c hm
  exact Bool.false_ne_true (hword.symm.trans hw)

end Text

namespace Page

section Signatures

variable {c : Char} {s segment typeName name : Text} {m : Member}

theorem notMem_shortTypeFrom (hs : c ∉ s) (h : c ∉ segment) : c ∉ shortTypeFrom segment s := by
  induction s generalizing segment with
  | nil => rwa [shortTypeFrom, List.mem_reverse]
  | cons d s ih =>
    have hd := List.ne_of_not_mem_cons hs
    have hs := List.not_mem_of_not_mem_cons hs
    rw [shortTypeFrom]
    split
    · exact ih hs List.not_mem_nil
    · split
      · rw [List.mem_append, List.mem_reverse, List.mem_cons]
        rintro (hm | hm | hm)
        · exact h hm
        · exact hd hm
        · exact ih hs List.not_mem_nil hm
      · exact ih hs (List.not_mem_cons_of_ne_of_not_mem hd h)

theorem notMem_shortType (hs : c ∉ s) : c ∉ shortType s :=
  notMem_shortTypeFrom hs List.not_mem_nil

theorem lineFeed_notMem_typed (ht : '\n' ∉ typeName) (hn : '\n' ∉ name) :
    '\n' ∉ typed typeName name := by
  unfold typed
  split
  · exact hn
  · simp [notMem_shortType ht, hn]

theorem lineFeed_notMem_signature (ht : '\n' ∉ m.typeName) (hn : '\n' ∉ m.name)
    (hp : ∀ p ∈ m.params, '\n' ∉ p.typeName ∧ '\n' ∉ p.name) : '\n' ∉ signature m := by
  have hparams : '\n' ∉ List.intercalate ", " (m.params.map fun p => typed p.typeName p.name) := by
    refine Text.notMem_intercalate (by decide) fun t h => ?_
    obtain ⟨p, hm, rfl⟩ := List.mem_map.1 h
    exact lineFeed_notMem_typed (hp p hm).1 (hp p hm).2
  have hname := lineFeed_notMem_typed ht hn
  unfold signature
  simp only [List.mem_append, not_or]
  exact ⟨⟨⟨hname, by decide⟩, hparams⟩, by decide⟩

end Signatures

namespace Wiki

variable {m : Member} {ms : List Member}

/-- The lines of a page below its summary. -/
inductive Line where
  | title (text : Text)
  | bullet (m : Member)
  | note (label text : Text)

def callableBullet (m : Member) : Text := "* " ++ code (signature m) ++ dashed m.summary

namespace Line

def mark : Line → Text
  | title _ => "!! "
  | bullet _ => "* "
  | note _ _ => "** "

/-- What a line is about: a kind of members, a member, or a parameter or the result of one. -/
def subject : Line → Text
  | title text => text
  | bullet m => m.name
  | note label _ => label

def print : Line → Text
  | title text => "!! " ++ text
  | bullet m => if m.detail.isProperty then property m else callableBullet m
  | note label text => "** _" ++ label ++ "_ - " ++ Text.oneLine text

@[simp] theorem print_title (text : Text) : print (title text) = "!! " ++ text := rfl

@[simp] theorem print_bullet (m : Member) :
    print (bullet m) = if m.detail.isProperty then property m else callableBullet m := rfl

@[simp] theorem print_note (label text : Text) :
    print (note label text) = "** _" ++ label ++ "_ - " ++ Text.oneLine text := rfl

end Line

theorem subBullet_eq (label text : Text) :
    subBullet label text = '\n' :: Line.print (.note label text) := rfl

/-- The described parameters of a member in their order, then its result, if it has any. -/
def notes (m : Member) : List Line :=
  ((m.params.filter (·.description ≠ [])).map fun p => .note p.name p.description) ++
    m.returns?.toList.map (.note "returns")

def memberLines (m : Member) : List Line := .bullet m :: notes m

def sectionLines (title : Text) (ms : List Member) : List Line :=
  if ms = [] then [] else .title title :: ms.flatMap memberLines

def typeLines (t : TypeDoc) : List Line :=
  sectionLines "Properties" t.properties ++ sectionLines "Events" t.events ++
    sectionLines "Methods" t.methods

def printLines (ls : List Line) : Text := ls.flatMap fun l => l.print ++ ['\n']

section Printed

/-- It is the same to end each further line and to begin each with a line feed. -/
theorem flatMap_print_append (ls : List Line) :
    (ls.flatMap fun l => '\n' :: l.print) ++ ['\n'] = '\n' :: printLines ls := by
  induction ls with
  | nil => rfl
  | cons l ls ih =>
    rw [List.flatMap_cons, List.append_assoc, ih, printLines, printLines, List.flatMap_cons]
    simp

theorem callable_eq_append (m : Member) :
    callable m = callableBullet m ++ (notes m).flatMap fun l => '\n' :: l.print := by
  have hparams : (m.params.flatMap fun p =>
      if p.description = [] then [] else subBullet p.name p.description) =
      ((m.params.filter (·.description ≠ [])).map fun p => .note p.name p.description).flatMap
        fun l => '\n' :: Line.print l := by
    induction m.params with
    | nil => rfl
    | cons p ps ih =>
      by_cases hp : p.description = []
      · rw [List.filter_cons_of_neg (by simpa using hp), ← ih, List.flatMap_cons, if_pos hp]
        rfl
      · rw [List.filter_cons_of_pos (by simpa using hp), List.map_cons, List.flatMap_cons,
          List.flatMap_cons, ← ih, if_neg hp, subBullet_eq]
  unfold callable
  rw [hparams, notes, List.flatMap_append, callableBullet, ← List.append_assoc]
  cases m.returns? with
  | none => rfl
  | some returns => simp [subBullet_eq]

theorem printLines_property (h : m.detail.isProperty = true) :
    printLines (memberLines m) = property m ++ ['\n'] := by
  have hnotes : notes m = [] := by
    unfold notes Member.params Member.returns?
    cases hd : m.detail with
    | property d => rfl
    | event ps => rw [hd] at h; cases h
    | method ps r => rw [hd] at h; cases h
  rw [memberLines, hnotes, printLines, List.flatMap_singleton, Line.print_bullet, if_pos h]

theorem printLines_callable (h : m.detail.isProperty = false) :
    printLines (memberLines m) = callable m ++ ['\n'] := by
  have hbullet : Line.print (.bullet m) = callableBullet m := by
    rw [Line.print_bullet, h]
    rfl
  rw [callable_eq_append, List.append_assoc, flatMap_print_append, memberLines, printLines,
    printLines, List.flatMap_cons, hbullet, List.append_assoc]
  rfl

theorem memberSection_eq {bullet : Member → Text} (title : Text)
    (h : ∀ m ∈ ms, printLines (memberLines m) = bullet m ++ ['\n']) :
    memberSection title bullet ms = printLines (sectionLines title ms) := by
  unfold memberSection sectionLines
  by_cases hms : ms = []
  · rw [if_pos hms, if_pos hms]
    rfl
  · have hbullets : printLines (ms.flatMap memberLines) =
        ms.flatMap fun m => bullet m ++ ['\n'] := by
      rw [printLines, List.flatMap_assoc, List.flatMap_def, List.flatMap_def]
      exact congrArg List.flatten (List.map_congr_left h)
    rw [if_neg hms, if_neg hms, ← hbullets]
    simp [printLines]

theorem isProperty_of_isEvent {d : Detail} (h : d.isEvent = true) : d.isProperty = false := by
  cases d with
  | property => cases h
  | event => rfl
  | method => rfl

theorem isProperty_of_isMethod {d : Detail} (h : d.isMethod = true) : d.isProperty = false := by
  cases d with
  | property => cases h
  | event => rfl
  | method => rfl

theorem typePage_eq_printLines (t : TypeDoc) :
    typePage t = "! " ++ t.name ++ "\n" ++ paragraphs t.summary ++ printLines (typeLines t) := by
  have hp : ∀ m ∈ t.properties, printLines (memberLines m) = property m ++ ['\n'] := by
    intro m hm
    exact printLines_property (List.mem_filter.1 hm).2
  have he : ∀ m ∈ t.events, printLines (memberLines m) = callable m ++ ['\n'] := by
    intro m hm
    exact printLines_callable (isProperty_of_isEvent (List.mem_filter.1 hm).2)
  have hm : ∀ m ∈ t.methods, printLines (memberLines m) = callable m ++ ['\n'] := by
    intro m hm
    exact printLines_callable (isProperty_of_isMethod (List.mem_filter.1 hm).2)
  unfold typePage
  rw [memberSection_eq _ hp, memberSection_eq _ he, memberSection_eq _ hm, typeLines]
  simp [printLines]

end Printed

/-- The names, types and defaults of a member hold no line feeds. -/
structure Unbroken (m : Member) : Prop where
  name : '\n' ∉ m.name
  typeName : '\n' ∉ m.typeName
  default : ∀ value ∈ m.default?, '\n' ∉ value
  params : ∀ p ∈ m.params, '\n' ∉ p.typeName ∧ '\n' ∉ p.name

section Unbroken

@[simp] theorem lineFeed_notMem_oneLine (s : Text) : '\n' ∉ Text.oneLine s :=
  Text.notMem_oneLine rfl (by decide) s

@[simp] theorem lineFeed_notMem_dashed (s : Text) : '\n' ∉ dashed s := by
  unfold dashed
  split
  · exact List.not_mem_nil
  · simp [lineFeed_notMem_oneLine s]

theorem lineFeed_notMem_property (h : Unbroken m) : '\n' ∉ property m := by
  have htype : '\n' ∉
      if m.typeName = [] then [] else (" " ++ code (shortType m.typeName) : Text) := by
    split
    · exact List.not_mem_nil
    · simp [code, notMem_shortType h.typeName]
  unfold property
  simp only [List.mem_append, not_or]
  refine ⟨⟨⟨⟨⟨by decide, h.name⟩, by decide⟩, htype⟩, lineFeed_notMem_dashed m.summary⟩, ?_⟩
  split
  · rename_i value hv
    simp [h.default value hv]
  · exact List.not_mem_nil

theorem lineFeed_notMem_callableBullet (h : Unbroken m) : '\n' ∉ callableBullet m := by
  have hsignature := lineFeed_notMem_signature h.typeName h.name h.params
  unfold callableBullet code
  simp only [List.mem_append, not_or]
  exact ⟨⟨by decide, ⟨by decide, hsignature⟩, by decide⟩, lineFeed_notMem_dashed m.summary⟩

theorem lineFeed_notMem_print (h : Unbroken m) {l : Line} (hl : l ∈ memberLines m) :
    '\n' ∉ l.print := by
  have hnote : ∀ label text : Text, '\n' ∉ label → '\n' ∉ Line.print (.note label text) := by
    intro label text hlabel
    simp [hlabel]
  rcases List.mem_cons.1 hl with rfl | hl
  · rw [Line.print_bullet]
    split
    · exact lineFeed_notMem_property h
    · exact lineFeed_notMem_callableBullet h
  · rcases List.mem_append.1 hl with hl | hl
    · obtain ⟨p, hp, rfl⟩ := List.mem_map.1 hl
      exact hnote _ _ (h.params p (List.mem_filter.1 hp).1).2
    · obtain ⟨returns, -, rfl⟩ := List.mem_map.1 hl
      exact hnote _ _ (by decide)

theorem mem_sectionLines {title : Text} {l : Line} (hl : l ∈ sectionLines title ms) :
    l = .title title ∨ ∃ m ∈ ms, l ∈ memberLines m := by
  unfold sectionLines at hl
  split at hl
  · cases hl
  · exact (List.mem_cons.1 hl).imp_right List.mem_flatMap.1

theorem mark_prefix_print (l : Line) : l.mark <+: l.print := by
  cases l with
  | title text => exact ⟨text, rfl⟩
  | bullet m =>
    rw [Line.print_bullet]
    split
    · unfold property
      exact ⟨_, by simp only [List.append_assoc]; rfl⟩
    · unfold callableBullet
      exact ⟨_, by simp only [List.append_assoc]; rfl⟩
  | note label text => exact ⟨_, by simp only [Line.print_note, List.append_assoc]; rfl⟩

theorem name_infix_signature (m : Member) : m.name <:+: signature m := by
  unfold signature typed
  split
  · exact ⟨[], _, by simp only [List.append_assoc]; rfl⟩
  · exact ⟨shortType m.typeName ++ " ", _, by simp only [List.append_assoc]; rfl⟩

theorem subject_infix_print (l : Line) : l.subject <:+: l.print := by
  cases l with
  | title text => exact ⟨"!! ", [], List.append_nil _⟩
  | bullet m =>
    rw [Line.print_bullet]
    split
    · unfold property
      exact ⟨"* *", _, by simp only [List.append_assoc]; rfl⟩
    · refine (name_infix_signature m).trans ⟨"* \x7b\"", "\"\x7d" ++ dashed m.summary, ?_⟩
      simp only [callableBullet, code, List.append_assoc]
      rfl
  | note label text => exact ⟨"** _", _, by simp only [Line.print_note, List.append_assoc]; rfl⟩

end Unbroken

/-- Below the heading and the summary of a type stands one line for each kind of members that
occurs, in a fixed order, one for each member of the kind, and below that of an event or a method
one for each described parameter and one for a result. Every line begins with the mark of its sort,
names what it is about and has no line feed but the one at its end, however many the summaries and
descriptions hold. -/
theorem typePage_lines (t : TypeDoc) (h : ∀ m ∈ t.members, Unbroken m) :
    typePage t = "! " ++ t.name ++ "\n" ++ paragraphs t.summary ++ printLines (typeLines t) ∧
      ∀ l ∈ typeLines t, l.mark <+: l.print ∧ l.subject <:+: l.print ∧ '\n' ∉ l.print := by
  refine ⟨typePage_eq_printLines t, fun l hl => ⟨mark_prefix_print l, subject_infix_print l, ?_⟩⟩
  have hsection : ∀ (title : Text) (ms : List Member), '\n' ∉ title →
      (∀ m ∈ ms, m ∈ t.members) → l ∈ sectionLines title ms → '\n' ∉ l.print := by
    intro title ms htitle hms hl
    rcases mem_sectionLines hl with rfl | ⟨m, hm, hl⟩
    · simp [htitle]
    · exact lineFeed_notMem_print (h m (hms m hm)) hl
  have hkind : ∀ (p : Member → Bool), ∀ m ∈ t.members.filter p, m ∈ t.members :=
    fun p m hm => (List.mem_filter.1 hm).1
  simp only [typeLines, List.mem_append] at hl
  rcases hl with (hl | hl) | hl
  · exact hsection _ _ (by decide) (hkind _) hl
  · exact hsection _ _ (by decide) (hkind _) hl
  · exact hsection _ _ (by decide) (hkind _) hl

/-- Line breaks in a summary, a description and a result, and a parameter without description. -/
theorem typePage_lines_of_breaks :
    let width : Member := { name := "Width", typeName := "System.Int32", origin := .xml,
                            summary := "In\n\npixels.\r\n", detail := .property (some "3") }
    let params : List Param := [⟨"a", [], "One\n* two"⟩, ⟨"b", "N.B", []⟩]
    let resize : Member := { name := "resize", origin := .client,
                             detail := .method params (some "\nself") }
    let t : TypeDoc := { fullName := "N.A", name := "A", scope := "N", members := [resize, width] }
    (∀ m ∈ t.members, Unbroken m) ∧
      typePage t = "! A\n" ++ printLines [.title "Properties", .bullet width, .title "Methods",
        .bullet resize, .note "a" "One\n* two", .note "returns" "\nself"] ∧
      Line.print (.bullet width) = "* *Width* \x7b\"Int32\"\x7d - In pixels. _Default: 3_".toList ∧
      ∀ l ∈ typeLines t, '\n' ∉ l.print := by
  intro width params resize t
  have h : ∀ m ∈ t.members, Unbroken m := by
    have hresize : Unbroken resize := ⟨by decide, by decide, by decide, by decide⟩
    have hwidth : Unbroken width := ⟨by decide, by decide, by decide, by decide⟩
    simpa [t] using And.intro hresize hwidth
  obtain ⟨hpage, hlines⟩ := typePage_lines t h
  exact ⟨h, hpage, by decide +kernel, fun l hl => (hlines l hl).2.2⟩

end Wiki

end Page

end ApiBook
