import ApiBook.Proofs.Script.Attribution

/-! # Descriptions of members

The summary of a member is the description on the line of its tag and the text lines below it.
Blank lines divide these into paragraphs, except for those between the description and the first
text line: there the two are joined like lines of one paragraph.
-/

namespace ApiBook.Script

variable {description name tag : Text} {texts above body below : List Text} {s : Segment}

/-- A blank line stands between a description and the text below it. -/
def BlankBelow (description : Text) (texts : List Text) : Prop :=
  description ≠ [] ∧ texts.head? = some [] ∧ ∃ t ∈ texts, t ≠ []

/-- What the line of a tag says behind the name. -/
def inlineDescription (tag : Text) : Text := (TagLine.ofText tag).declared.description

/-- The text among comment lines, with an empty text for each blank line. -/
def textLines (lines : List Text) : List Text :=
  Piece.textLines (lines.map (TagLine.piece ∘ TagLine.ofText))

theorem intercalate_ne_nil {s t : Text} (h : s ≠ [] ∨ t ≠ []) :
    List.intercalate "\n" ([s, t].filter (· ≠ [])) ≠ [] := by
  by_cases hs : s = []
  · have ht : t ≠ [] := h.resolve_left fun hne => hne hs
    simp [hs, ht]
  · by_cases ht : t = [] <;> simp [hs, ht, List.intercalate_cons_cons]

@[simp] theorem paragraphs_eq_nil_iff : paragraphs texts = [] ↔ ∀ t ∈ texts, t = [] := by
  induction texts with
  | nil => simp [paragraphs]
  | cons t texts ih =>
    rw [List.forall_mem_cons]
    by_cases ht : t = []
    · simp [ht, ih]
    · simp [ht, paragraphs_cons_ne_nil ht]

@[simp] theorem joinParagraphs_eq_nil_iff :
    joinParagraphs (paragraphs texts) = [] ↔ ∀ t ∈ texts, t = [] := by
  induction texts with
  | nil => simp [paragraphs, joinParagraphs]
  | cons t texts ih =>
    rw [List.forall_mem_cons]
    by_cases ht : t = []
    · simp [ht, ih]
    · simp [ht, joinParagraphs_cons ht]

theorem intercalate_description (hd : description ≠ []) (ht : ∃ t ∈ texts, t ≠ []) :
    List.intercalate "\n" ([description, joinParagraphs (paragraphs texts)].filter (· ≠ [])) =
      description ++ "\n" ++ joinParagraphs (paragraphs texts) := by
  have hp : joinParagraphs (paragraphs texts) ≠ [] := by
    simpa using ht
  simp [hd, hp, List.intercalate_cons_cons]

/-- One line feed between description and text is what the blank lines ask for, unless one of them
stands right below the description. -/
theorem intercalate_eq_joinParagraphs_iff :
    List.intercalate "\n" ([description, joinParagraphs (paragraphs texts)].filter (· ≠ [])) =
      joinParagraphs (paragraphs (description :: texts)) ↔ ¬ BlankBelow description texts := by
  by_cases hd : description = []
  · have hb : ¬ BlankBelow description texts := fun h => h.1 hd
    rw [hd, paragraphs_nil_cons]
    by_cases hp : joinParagraphs (paragraphs texts) = [] <;> simp [hp, hd ▸ hb]
  · by_cases ht : ∃ t ∈ texts, t ≠ []
    · have hn : paragraphs texts ≠ [] := by
        simpa using ht
      rw [intercalate_description hd ht, joinParagraphs_cons hd, Script.below, if_neg hn]
      by_cases hh : texts.head? = some []
      · have hb : BlankBelow description texts := ⟨hd, hh, ht⟩
        simp [hh, hb]
      · have hb : ¬ BlankBelow description texts := fun h => hh h.2.1
        simp [hh, hb]
    · have hb : ¬ BlankBelow description texts := fun h => ht h.2.2
      push Not at ht
      rw [joinParagraphs_eq_nil_iff.2 ht, joinParagraphs_cons hd, Script.below,
        if_pos (paragraphs_eq_nil_iff.2 ht)]
      simp [hd, hb]

namespace Segments

variable {l : TagLine} {ls rest : List TagLine}

theorem ofLines_of_opens (ho : l.opens = true) (ls : List TagLine) :
    (ofLines (l :: ls)).lead = [] ∧ (ofLines (l :: ls)).segments =
      ⟨l, (ofLines ls).lead, ho, (ofLines ls).closed⟩ :: (ofLines ls).segments := by
  change (cons l (ofLines ls)).lead = [] ∧ (cons l (ofLines ls)).segments = _
  rw [cons, dif_pos ho]
  exact ⟨rfl, rfl⟩

theorem ofLines_of_closed (hc : ∀ l ∈ ls, l.opens = false) (rest : List TagLine) :
    (ofLines (ls ++ rest)).lead = ls ++ (ofLines rest).lead ∧
      (ofLines (ls ++ rest)).segments = (ofLines rest).segments := by
  induction ls with
  | nil => exact ⟨rfl, rfl⟩
  | cons l ls ih =>
    obtain ⟨hl, hls⟩ := List.forall_mem_cons.1 hc
    change (cons l (ofLines (ls ++ rest))).lead = _ ∧ (cons l (ofLines (ls ++ rest))).segments = _
    rw [cons, dif_neg (Bool.eq_false_iff.1 hl)]
    exact ⟨congrArg (l :: ·) (ih hls).1, (ih hls).2⟩

theorem ofLines_append_of_opens (ho : l.opens = true) (ls rest : List TagLine) :
    (ofLines (ls ++ l :: rest)).lead = (ofLines ls).lead ∧
      (ofLines (ls ++ l :: rest)).segments =
        (ofLines ls).segments ++ (ofLines (l :: rest)).segments := by
  induction ls with
  | nil => exact ⟨(ofLines_of_opens ho rest).1, rfl⟩
  | cons m ls ih =>
    obtain ⟨hlead, hsegs⟩ := ih
    by_cases hm : m.opens = true
    · rw [List.cons_append, (ofLines_of_opens hm _).1, (ofLines_of_opens hm _).1,
        (ofLines_of_opens hm _).2, (ofLines_of_opens hm _).2]
      simp [hlead, hsegs]
    · have hc : ∀ l ∈ [m], l.opens = false := by simpa using hm
      have h := ofLines_of_closed hc (ls ++ l :: rest)
      have h' := ofLines_of_closed hc ls
      simp only [List.singleton_append] at h h'
      rw [List.cons_append, h.1, h'.1, h.2, h'.2, hlead, hsegs]
      exact ⟨rfl, rfl⟩

theorem ofLines_append_segment (ls : List TagLine) (s : Segment)
    (hr : ∀ l, rest.head? = some l → l.opens = true) :
    (ofLines (ls ++ (s.lines ++ rest))).lead = (ofLines ls).lead ∧
      (ofLines (ls ++ (s.lines ++ rest))).segments =
        (ofLines ls).segments ++ s :: (ofLines rest).segments := by
  have hrest : (ofLines rest).lead = [] := by
    cases rest with
    | nil => rfl
    | cons l rest => exact (ofLines_of_opens (hr l rfl) rest).1
  obtain ⟨opener, body, ho, hc⟩ := s
  have h := ofLines_append_of_opens ho ls (body ++ rest)
  have hbody := ofLines_of_closed hc rest
  rw [hrest, List.append_nil] at hbody
  refine ⟨h.1, h.2.trans ?_⟩
  rw [(ofLines_of_opens ho _).2]
  simp only [hbody.1, hbody.2]

@[simp] theorem notesFrom_append (lead : List Piece) (earlier segments rest : List Segment) :
    notesFrom lead earlier (segments ++ rest) =
      notesFrom lead earlier segments ++ notesFrom lead (earlier ++ segments) rest := by
  induction segments generalizing earlier with
  | nil => simp [notesFrom]
  | cons s segments ih => simp [notesFrom, ih]

end Segments

theorem notes_append_segment (above : List TagLine) (s : Segment) {below : List TagLine}
    (hb : ∀ l, below.head? = some l → l.opens = true) :
    let x := Segments.ofLines above
    let lead := x.lead.map TagLine.piece
    (Segments.ofLines (above ++ (s.lines ++ below))).notes = x.notes ++
      (s.notes (Piece.prose lead) (Segments.waiting lead x.segments) ++
        Segments.notesFrom lead (x.segments ++ [s]) (Segments.ofLines below).segments) := by
  intro x lead
  obtain ⟨hlead, hsegs⟩ := Segments.ofLines_append_segment above s hb
  rw [Segments.notes, Segments.notes, hlead, hsegs, Segments.notesFrom_append, Segments.notesFrom,
    List.nil_append]
  simp only [List.append_assoc]
  rfl

/-- The notes of a block around a member tag and the lines up to the next one. -/
theorem notes_append_tag (above : List Text) (ho : (TagLine.ofText tag).opens = true)
    (hbody : ∀ l ∈ body.map TagLine.ofText, l.opens = false) (hbelow : StartsAtTag below) :
    ∃ lead waiting rest, notes (above ++ tag :: (body ++ below)) =
      notes above ++ (Segment.notes lead waiting ⟨TagLine.ofText tag, _, ho, hbody⟩ ++ rest) := by
  have hb : ∀ l, (below.map TagLine.ofText).head? = some l → l.opens = true := by
    intro l hl
    rw [List.head?_map, Option.map_eq_some_iff] at hl
    obtain ⟨l, hl, rfl⟩ := hl
    exact hbelow l hl
  have happ : (above ++ tag :: (body ++ below)).map TagLine.ofText =
      above.map TagLine.ofText ++ (Segment.lines ⟨TagLine.ofText tag, _, ho, hbody⟩ ++
        below.map TagLine.ofText) := by
    simp [Segment.lines]
  rw [notes_eq_segments, notes_eq_segments above, happ, notes_append_segment _ _ hb]
  exact ⟨_, _, _, rfl⟩

theorem notes_append_declared (above : List TagLine) {below : List TagLine}
    (hb : ∀ l, below.head? = some l → l.opens = true)
    (hn : s.opener.declared.name = some name) (hs : s.summary ≠ []) :
    ∃ subject rest, (Segments.ofLines (above ++ (s.lines ++ below))).notes =
      (Segments.ofLines above).notes ++ .declared ⟨name, s.summary, subject⟩ :: rest := by
  have hf : ∀ text, firstText [s.summary, text] = s.summary := fun text => by
    simp [hs]
  rw [notes_append_segment above s hb, Segment.notes, Segment.declaration?, hn, Option.map_some,
    Option.map_some, hf]
  exact ⟨_, _, rfl⟩

/-- The description on the line of a member tag and the text lines of its segment, if they are not
all empty, are the summary of the member, whose note follows those of the lines above. They stand
in their paragraphs exactly when no blank line stands between the description and the first text
line; there the two are always joined by one line feed. -/
theorem summary_keeps_breaks_iff (above : List Text) (ho : (TagLine.ofText tag).opens = true)
    (hn : (TagLine.ofText tag).declared.name = some name)
    (hbody : ∀ l ∈ body, (TagLine.ofText l).opens = false) (hbelow : StartsAtTag below)
    (hw : inlineDescription tag ≠ [] ∨ ∃ t ∈ textLines body, t ≠ []) :
    ∃ d rest, notes (above ++ tag :: (body ++ below)) = notes above ++ .declared d :: rest ∧
      d.name = name ∧
      d.summary = List.intercalate "\n"
        ([inlineDescription tag, joinParagraphs (paragraphs (textLines body))].filter (· ≠ [])) ∧
      (d.summary = joinParagraphs (paragraphs (inlineDescription tag :: textLines body)) ↔
        ¬ BlankBelow (inlineDescription tag) (textLines body)) := by
  have hc : ∀ l ∈ body.map TagLine.ofText, l.opens = false := by simpa using hbody
  have hb : ∀ l, (below.map TagLine.ofText).head? = some l → l.opens = true := by
    intro l hl
    rw [List.head?_map, Option.map_eq_some_iff] at hl
    obtain ⟨l, hl, rfl⟩ := hl
    exact hbelow l hl
  let s : Segment := ⟨TagLine.ofText tag, body.map TagLine.ofText, ho, hc⟩
  have hsum : s.summary = List.intercalate "\n"
      ([inlineDescription tag, joinParagraphs (paragraphs (textLines body))].filter (· ≠ [])) := by
    rw [textLines, ← List.map_map]
    rfl
  have hne : s.summary ≠ [] := by
    rw [hsum]
    refine intercalate_ne_nil (hw.imp_right ?_)
    rintro ⟨t, ht, hne⟩ hp
    exact hne (joinParagraphs_eq_nil_iff.1 hp t ht)
  have happ : (above ++ tag :: (body ++ below)).map TagLine.ofText =
      above.map TagLine.ofText ++ (s.lines ++ below.map TagLine.ofText) := by
    simp [s, Segment.lines]
  obtain ⟨subject, rest, hnotes⟩ :=
    notes_append_declared (s := s) (above.map TagLine.ofText) hb hn hne
  rw [notes_eq_segments, notes_eq_segments above, happ, hnotes]
  exact ⟨_, rest, rfl, rfl, hsum, hsum ▸ intercalate_eq_joinParagraphs_iff⟩

/-- Blank lines above the text of a member without a description, and between two of its text lines
with a parameter in front of the second. -/
theorem summary_keeps_breaks_of_method :
    let above : List Text := ["Of the box.", "@property {A} Width"]
    let body : List Text := ["", "Opens.", "", "@param {B} b", "At once.", "Again."]
    let below : List Text := ["@event Shown"]
    ∃ d rest, notes (above ++ "@method {C} open".toList :: (body ++ below)) =
        notes above ++ .declared d :: rest ∧
      d.name = "open".toList ∧ d.summary = "Opens.\n\nAt once.\nAgain.".toList := by
  intro above body below
  have ho : (TagLine.ofText "@method {C} open").opens = true := by decide +kernel
  have hn : (TagLine.ofText "@method {C} open").declared.name = some "open".toList := by
    decide +kernel
  have hbody : ∀ l ∈ body, (TagLine.ofText l).opens = false := by decide +kernel
  have hbelow : StartsAtTag below := by
    intro l hl
    obtain rfl := Option.some.inj hl
    decide +kernel
  have hw : ∃ t ∈ textLines body, t ≠ [] := by decide +kernel
  have hb : ¬ BlankBelow (inlineDescription "@method {C} open") (textLines body) :=
    fun hb => absurd hb.1 (by decide +kernel)
  obtain ⟨d, rest, hd, hname, -, h⟩ :=
    summary_keeps_breaks_iff above ho hn hbody hbelow (.inr hw)
  refine ⟨d, rest, hd, hname, (h.2 hb).trans ?_⟩
  decide +kernel

/-- A blank line between the description of a property and the text below it is lost. -/
theorem break_lost_below_description :
    notes ["@property Width Of the box.", "", "In pixels."] =
        [.declared ⟨"Width", "Of the box.\nIn pixels.", .member [] (.property none)⟩] ∧
      joinParagraphs (paragraphs ["Of the box.", "", "In pixels."]) =
        "Of the box.\n\nIn pixels.".toList := by
  decide +kernel

end ApiBook.Script
