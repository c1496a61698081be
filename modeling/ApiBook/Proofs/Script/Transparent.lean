import ApiBook.Proofs.Script.Attribution

/-! # Tags that leave no trace

A member tag without a name and the lines below it might as well not be there, up to the next member
tag. Unknown tags are reported and change nothing else.
-/

namespace ApiBook.Script

/-- Lines that start with a member tag and hold no tag that is reported, so that none of their
member tags has a name. -/
structure IsMalformed (lines : List Text) : Prop where
  opens : ∃ l, lines.head? = some l ∧ (TagLine.ofText l).opens = true
  unreported : ∀ l ∈ lines, (TagLine.ofText l).heading? = none

def TagLine.isKnown (l : TagLine) : Bool := l.keyword? != some .unknown

def Note.isKnown : Note → Bool
  | unrecognized _ => false
  | summary _ | declared _ => true

variable {l : TagLine} {ls : List TagLine} {r : Reading} {d : Declaration}

namespace Reading

/-! ## Lines that are skipped -/

@[simp] theorem found_skip (r : Reading) : r.skip.found = r.found := by
  simp [skip, close, found]

@[simp] theorem skip_skip (r : Reading) : r.skip.skip = r.skip := by
  rw [skip, close, found_skip]
  rfl

@[simp] theorem openWith_skip (r : Reading) (d : Declaration) :
    r.skip.openWith d = r.openWith d := by
  rw [openWith, close, found_skip]
  rfl

theorem step_of_nameless (ho : l.opens = true) (hn : l.declared.name = none) (r : Reading) :
    r.step l = r.skip :=
  step_opener_of_none (s := ⟨l, [], ho, by simp⟩) hn r

theorem step_skip_of_opens (ho : l.opens = true) (r : Reading) : r.skip.step l = r.step l := by
  let s : Segment := ⟨l, [], ho, by simp⟩
  cases hn : s.opener.declared.name with
  | none => simp [step_of_nameless ho hn]
  | some n =>
    have hw : r.skip.waiting = r.waiting := rfl
    rw [step_opener_of_some (s := s) hn, step_opener_of_some (s := s) hn, hw, openWith_skip]

theorem name_eq_none_of_heading? (ho : l.opens = true) (h : l.heading? = none) :
    l.declared.name = none := by
  have hs := heading?_opener ⟨l, [], ho, by simp⟩ none
  rwa [h, eq_comm, Option.map_eq_none_iff] at hs

/-- While lines are skipped, only a tag that is reported leaves a trace. -/
theorem step_skip (h : l.heading? = none) (r : Reading) : r.skip.step l = r.skip := by
  by_cases ho : l.opens = true
  · rw [step_skip_of_opens ho, step_of_nameless ho (name_eq_none_of_heading? ho h)]
  · rw [Bool.not_eq_true] at ho
    cases l with
    | blank => rfl
    | text _ => rfl
    | default _ => rfl
    | tag name rest =>
      simp only [TagLine.opens, TagLine.keyword?, Option.any_some] at ho
      simp only [TagLine.heading?] at h
      simp only [step, tag]
      cases hk : Keyword.ofName name with
      | wholeClass | property | event | method => exact absurd (hk ▸ ho) (by decide)
      | param => cases (Declared.ofText rest).name <;> rfl
      | returns => rfl
      | default => rfl
      | type => rfl
      | unknown => simp [hk] at h

theorem foldl_step_skip (h : ∀ l ∈ ls, l.heading? = none) (r : Reading) :
    ls.foldl step r.skip = r.skip := by
  induction ls with
  | nil => rfl
  | cons l ls ih =>
    obtain ⟨hl, hls⟩ := List.forall_mem_cons.1 h
    rw [List.foldl_cons, step_skip hl, ih hls]

@[simp] theorem finish_skip (r : Reading) : r.skip.finish = r.finish := by
  rw [finish, finish, found_skip]
  rfl

/-! ## Unknown tags -/

def erase (r : Reading) : Reading :=
  { r with closed := r.closed.filter Note.isKnown, strays := r.strays.filter Note.isKnown }

@[simp] theorem erase_current (r : Reading) : r.erase.current = r.current := rfl

@[simp] theorem erase_leading (r : Reading) : r.erase.leading = r.leading := rfl

@[simp] theorem erase_waiting (r : Reading) : r.erase.waiting = r.waiting := rfl

@[simp] theorem erase_skipping (r : Reading) : r.erase.skipping = r.skipping := rfl

@[simp] theorem found_erase (r : Reading) : r.erase.found = r.found.filter Note.isKnown := by
  have hd : (r.current.map fun d => Note.declared (d.addProse r.body.text)).toList.filter
      Note.isKnown = (r.current.map fun d => Note.declared (d.addProse r.body.text)).toList := by
    cases r.current <;> rfl
  rw [found, found, List.filter_append, List.filter_append, hd]
  rfl

@[simp] theorem skip_erase (r : Reading) : r.erase.skip = r.skip.erase := by
  rw [skip, close, found_erase]
  rfl

@[simp] theorem openWith_erase (r : Reading) (d : Declaration) :
    r.erase.openWith d = (r.openWith d).erase := by
  rw [openWith, close, found_erase]
  rfl

@[simp] theorem text_erase (r : Reading) (line : Text) :
    r.erase.text line = (r.text line).erase := by
  rw [text, text, erase_skipping, erase_current]
  split_ifs <;> rfl

@[simp] theorem blank_erase (r : Reading) : r.erase.blank = r.blank.erase := by
  rw [blank, blank, erase_skipping, erase_current]
  split_ifs <;> rfl

@[simp] theorem default_erase (r : Reading) (value : Text) :
    r.erase.default value = (r.default value).erase := by
  rw [default, default, erase_skipping, erase_current]
  split
  · rfl
  · cases r.current.bind (Declaration.setDefault? value) <;> rfl

@[simp] theorem member_erase (r : Reading) (d : Declared) (subject : Subject) :
    r.erase.member d subject = (r.member d subject).erase := by
  unfold member
  cases d.name with
  | none => exact skip_erase r
  | some n => exact openWith_erase r _

/-- Every line other than an unknown tag does the same where the unknown tags are left out. -/
theorem step_erase (h : l.isKnown = true) (r : Reading) : r.erase.step l = (r.step l).erase := by
  cases l with
  | blank => exact blank_erase r
  | text line => exact text_erase r line
  | default value => exact default_erase r value
  | tag name rest =>
    simp only [step, tag]
    cases hk : Keyword.ofName name with
    | wholeClass => exact member_erase r _ _
    | property =>
      simp only [erase_waiting, member_erase]
      split <;> rfl
    | event => exact member_erase r _ _
    | method => exact member_erase r _ _
    | param => cases (Declared.ofText rest).name <;> rfl
    | returns => rfl
    | default => exact default_erase r _
    | type => rfl
    | unknown => simp [TagLine.isKnown, TagLine.keyword?, hk] at h

theorem erase_step_of_unknown (h : l.isKnown = false) (r : Reading) :
    (r.step l).erase = r.erase := by
  cases l with
  | blank | text _ | default _ => exact Bool.noConfusion h
  | tag name rest =>
    have hk : Keyword.ofName name = .unknown := by simpa [TagLine.isKnown, TagLine.keyword?] using h
    simp only [step, tag, hk, erase, List.filter_append]
    simp [Note.isKnown]

theorem erase_foldl_step (ls : List TagLine) (r : Reading) :
    (ls.foldl step r).erase = (ls.filter TagLine.isKnown).foldl step r.erase := by
  induction ls generalizing r with
  | nil => rfl
  | cons l ls ih =>
    rw [List.foldl_cons, ih]
    cases hl : l.isKnown with
    | true => rw [List.filter_cons_of_pos hl, List.foldl_cons, step_erase hl]
    | false => rw [List.filter_cons_of_neg (by simp [hl]), erase_step_of_unknown hl]

@[simp] theorem isKnown_inherit (text : Text) (n : Note) :
    (inherit text n).isKnown = n.isKnown := by
  cases n <;> rfl

@[simp] theorem finish_erase (r : Reading) : r.erase.finish = r.finish.filter Note.isKnown := by
  have hi : Note.isKnown ∘ inherit r.leading.text = Note.isKnown :=
    funext fun n => isKnown_inherit r.leading.text n
  rw [finish, finish, found_erase, erase_leading]
  split
  · rfl
  · rw [List.filter_cons_of_pos rfl, List.filter_map, hi]

end Reading

theorem notes_of_malformed {before junk after : List Text} (hj : IsMalformed junk)
    (ha : StartsAtTag after) : notes (before ++ junk ++ after) = notes (before ++ after) := by
  obtain ⟨l, hl, ho⟩ := hj.opens
  obtain ⟨junk, rfl⟩ := List.head?_eq_some_iff.1 hl
  obtain ⟨hn, hu⟩ := List.forall_mem_cons.1 hj.unreported
  have hu' : ∀ l ∈ junk.map TagLine.ofText, l.heading? = none := by simpa using hu
  have hskip := Reading.step_of_nameless ho (Reading.name_eq_none_of_heading? ho hn)
  simp only [notes, List.map_append, List.map_cons, List.foldl_append, List.foldl_cons, hskip,
    Reading.foldl_step_skip hu']
  cases after with
  | nil => exact Reading.finish_skip _
  | cons l' after =>
    rw [List.map_cons, List.foldl_cons, List.foldl_cons,
      Reading.step_skip_of_opens (ha l' rfl)]

theorem notes_filter_isKnown (lines : List Text) :
    notes (lines.filter fun l => (TagLine.ofText l).isKnown) =
      (notes lines).filter Note.isKnown := by
  have hf : (lines.filter fun l => (TagLine.ofText l).isKnown).map TagLine.ofText =
      (lines.map TagLine.ofText).filter TagLine.isKnown := by
    rw [List.filter_map]
    rfl
  rw [notes, notes, hf, ← Reading.finish_erase, Reading.erase_foldl_step]
  rfl

/-- A member tag without a name and all lines below it up to the next member tag leave no trace, as
long as they hold no unknown tag. And without its unknown tags a block gives the same notes but for
the reports of these tags. -/
theorem notes_transparent :
    (∀ before junk after : List Text, IsMalformed junk → StartsAtTag after →
      notes (before ++ junk ++ after) = notes (before ++ after)) ∧
    ∀ lines : List Text,
      notes (lines.filter fun l => (TagLine.ofText l).isKnown) =
        (notes lines).filter Note.isKnown :=
  ⟨fun _ _ _ => notes_of_malformed, notes_filter_isKnown⟩

/-- The lines below a method without a name, among them an event without one, reach neither the
property above nor the one below. -/
theorem notes_transparent_of_method :
    let before : List Text := ["Of the box.", "@property {A} Width", "In pixels.", ""]
    let junk : List Text :=
      ["@method {B}", "Lost.", "Default: 5", "@param {C} c", "@event", "@type D", "@returns e"]
    let after : List Text := ["@prop Height", "@private", "In lines."]
    IsMalformed junk ∧ StartsAtTag after ∧
      notes (before ++ junk ++ after) = notes (before ++ after) := by
  intro before junk after
  have hj : IsMalformed junk := by
    refine ⟨⟨"@method {B}", rfl, by decide +kernel⟩, ?_⟩
    decide +kernel
  have ha : StartsAtTag after := by
    intro l hl
    obtain rfl := Option.some.inj hl
    decide +kernel
  exact ⟨hj, ha, notes_transparent.1 before junk after hj ha⟩

end ApiBook.Script
