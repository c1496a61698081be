import ApiBook.Proofs.Script.Segment

/-! # Attribution of lines to declarations

Reading a block line by line gives each declaration what its own segment says.
-/

namespace ApiBook.Script

variable {l : TagLine} {ls : List TagLine} {x : Piece} {xs ys : List Piece} {d : Declaration}
  {r : Reading} {s : Segment}

section Fill

theorem firstText_cons (t : Text) (ts : List Text) :
    firstText (t :: ts) = if t = [] then firstText ts else t := by
  by_cases h : t = [] <;> simp [firstText, h]

@[simp] theorem firstText_singleton (t : Text) : firstText [t] = t := by
  by_cases h : t = [] <;> simp [firstText, h]

@[simp] theorem firstText_pair (t u : Text) : firstText [t, u] = if t = [] then u else t := by
  rw [firstText_cons, firstText_singleton]

theorem firstText_cons_append (t : Text) (ts us : List Text) :
    firstText (t :: (ts ++ us)) = firstText (firstText (t :: ts) :: us) := by
  induction ts generalizing t with
  | nil => simp
  | cons u ts ih =>
    by_cases h : t = []
    · simp only [List.cons_append, firstText_cons t, if_pos h, ih]
    · simp only [List.cons_append, firstText_cons t, if_neg h]

namespace Subject

@[simp] theorem fill_nil (s : Subject) : s.fill [] = s := by
  cases s with
  | wholeClass => rfl
  | member type detail =>
    cases detail <;>
      simp [fill, Piece.types, Piece.defaults, Piece.params, Piece.results, Piece.resultTexts]

@[simp] theorem fill_append (s : Subject) (xs ys : List Piece) :
    s.fill (xs ++ ys) = (s.fill xs).fill ys := by
  cases s with
  | wholeClass => rfl
  | member type detail =>
    cases detail <;>
      simp [fill, Piece.types, Piece.defaults, Piece.params, Piece.results, Piece.resultTexts,
        firstText_cons_append, List.getLast?_append, Option.or_assoc]

def isProperty : Subject → Bool
  | member _ detail => detail.isProperty
  | wholeClass => false

@[simp] theorem isProperty_fill (s : Subject) (xs : List Piece) :
    (s.fill xs).isProperty = s.isProperty := by
  cases s with
  | wholeClass => rfl
  | member type detail => cases detail <;> rfl

end Subject

namespace Declaration

def fill (xs : List Piece) (d : Declaration) : Declaration :=
  { d with subject := d.subject.fill xs }

@[simp] theorem fill_nil (d : Declaration) : d.fill [] = d :=
  congrArg (fun subject => { d with subject }) d.subject.fill_nil

@[simp] theorem fill_append (d : Declaration) (xs ys : List Piece) :
    d.fill (xs ++ ys) = (d.fill xs).fill ys :=
  congrArg (fun subject => { d with subject }) (d.subject.fill_append xs ys)

@[simp] theorem isProperty_fill (d : Declaration) (xs : List Piece) :
    (d.fill xs).subject.isProperty = d.subject.isProperty :=
  d.subject.isProperty_fill xs

@[simp] theorem isSome_setDefault? (value : Text) (d : Declaration) :
    (d.setDefault? value).isSome = d.subject.isProperty := by
  obtain ⟨name, summary, subject⟩ := d
  cases subject with
  | wholeClass => rfl
  | member type detail => cases detail <;> rfl

def take : Piece → Declaration → Declaration
  | .text _ | .unknown _ | .nothing => id
  | .default value => fun d => (d.setDefault? value).getD d
  | .param p => addParam p
  | .result r => setResult r
  | .type t => setType ⟨t, none, []⟩

theorem take_eq_fill (x : Piece) (d : Declaration) : d.take x = d.fill [x] := by
  obtain ⟨name, summary, subject⟩ := d
  cases subject with
  | wholeClass => cases x <;> rfl
  | member type detail =>
    match x, detail with
    | .default value, .property _ =>
      exact congrArg (fun t => Declaration.mk name summary (.member t (.property (some value))))
        (firstText_singleton type).symm
    | .param p, .event ps => rfl
    | .param p, .method ps returns =>
      exact congrArg
        (fun t => Declaration.mk name summary (.member t (.method (ps ++ [p]) returns)))
        (firstText_singleton type).symm
    | .result r, .method ps returns =>
      have ht : firstText [type, r.typeName] = if type = [] then r.typeName else type :=
        firstText_pair _ _
      have hr : (Piece.resultTexts [.result r]).getLast?.or returns =
          if resultText r = [] then returns else some (resultText r) := by
        by_cases h : resultText r = [] <;> simp [Piece.resultTexts, Piece.results, h]
      have hp : ps ++ Piece.params [.result r] = ps := List.append_nil ps
      exact congrArg (Declaration.mk name summary) (by rw [Subject.fill, hr, hp]; exact ht ▸ rfl)
    | .type t, .property value =>
      have ht : firstText [type, t] = if type ≠ [] then type else if t = [] then [] else t := by
        by_cases h : type = [] <;> by_cases h' : t = [] <;> simp [h, h']
      exact congrArg (fun t => Declaration.mk name summary (.member t (.property value))) ht.symm
    | .text _, _ | .unknown _, _ | .nothing, _ => exact (fill_nil _).symm
    | .default _, .event _ | .default _, .method _ _ => exact (fill_nil _).symm
    | .param _, .property _ => exact (fill_nil _).symm
    | .result _, .property _ | .result _, .event _ => exact (fill_nil _).symm
    | .type _, .event _ | .type _, .method _ _ => exact (fill_nil _).symm

end Declaration

end Fill

namespace Reading

def take (r : Reading) : Piece → Reading
  | .text t => if t = [] then r.blank else r.text t
  | .default value => r.default value
  | .unknown name => { r with strays := r.strays ++ [.unrecognized name] }
  | x => r.mapCurrent (Declaration.take x)

@[simp] theorem mapCurrent_id (r : Reading) : r.mapCurrent id = r :=
  congrArg (fun current => { r with current }) (Option.map_id_fun ▸ rfl)

theorem setType_eq (t : Declared) :
    Declaration.setType t = Declaration.take (.type (firstText [t.typeName, t.name.getD []])) := by
  have ht := firstText_pair t.typeName (t.name.getD [])
  have hself : ∀ u : Text, (if u = [] then [] else u) = u := by
    intro u
    split
    · rename_i hu
      exact hu.symm
    · rfl
  funext d
  simp only [Declaration.take, Declaration.setType, ht, Option.getD_none, hself]

theorem step_eq_take (ho : l.opens = false) (ht : l ≠ .text []) (r : Reading) :
    r.step l = r.take l.piece := by
  cases l with
  | blank => rfl
  | text t => exact (if_neg fun h : t = [] => ht (congrArg _ h)).symm
  | default value => rfl
  | tag name rest =>
    simp only [TagLine.opens, TagLine.keyword?, Option.any_some] at ho
    simp only [step, tag, TagLine.piece]
    cases hk : Keyword.ofName name with
    | wholeClass | property | event | method => exact absurd (hk ▸ ho) (by decide)
    | param =>
      cases (Declared.ofText rest).name with
      | none => exact (mapCurrent_id r).symm
      | some n => rfl
    | returns => rfl
    | default => rfl
    | type => exact congrArg r.mapCurrent (setType_eq _)
    | unknown => rfl

/-- While a member tag without a name is skipped, no declaration is open. -/
def Consistent (r : Reading) : Prop := r.skipping = true → r.current = none

/-- Reading on in the same segment: an open declaration takes the lines; without one, texts lead
and default values wait, unless lines are skipped. -/
def takeAll (xs : List Piece) (r : Reading) : Reading :=
  { r with
    current := r.current.map (Declaration.fill xs)
    strays := r.strays ++ Piece.unknownTags xs
    body := if r.current.isSome then (Piece.textLines xs).foldl Prose.read r.body else r.body
    leading :=
      if r.current.isSome ∨ r.skipping then r.leading
      else (Piece.textLines xs).foldl Prose.read r.leading
    waiting :=
      if r.skipping ∨ r.current.any (·.subject.isProperty) then r.waiting
      else (Piece.defaults xs).getLast?.or r.waiting }

theorem Consistent.cases (hr : r.Consistent) :
    (∃ d, r.current = some d ∧ r.skipping = false) ∨ (r.current = none ∧ r.skipping = true) ∨
      (r.current = none ∧ r.skipping = false) := by
  obtain ⟨closed, current, strays, body, leading, waiting, skipping⟩ := r
  cases current <;> cases skipping <;> simp [Consistent] at hr ⊢

@[simp] theorem takeAll_nil (r : Reading) : r.takeAll [] = r := by
  obtain ⟨closed, current, strays, body, leading, waiting, skipping⟩ := r
  cases current <;>
    simp [takeAll, Piece.unknownTags, Piece.defaults, Piece.textLines]

@[simp] theorem takeAll_append (r : Reading) (xs ys : List Piece) :
    r.takeAll (xs ++ ys) = (r.takeAll xs).takeAll ys := by
  obtain ⟨closed, current, strays, body, leading, waiting, skipping⟩ := r
  cases current with
  | none =>
    cases skipping <;>
      simp [takeAll, Piece.unknownTags, Piece.defaults, Piece.textLines, List.getLast?_append,
        Option.or_assoc]
  | some d =>
    cases hd : d.subject.isProperty <;> cases skipping <;>
      simp [takeAll, Piece.unknownTags, Piece.defaults, Piece.textLines, List.getLast?_append,
        Option.or_assoc, hd]

theorem take_eq_takeAll (hr : r.Consistent) : r.take x = r.takeAll [x] := by
  obtain ⟨closed, current, strays, body, leading, waiting, skipping⟩ := r
  rcases hr.cases with ⟨d, rfl, rfl⟩ | ⟨rfl, rfl⟩ | ⟨rfl, rfl⟩
  · cases x with
    | text t =>
      have hd : ∀ t, d.fill [.text t] = d := fun t => (Declaration.take_eq_fill _ d).symm
      by_cases ht : t = [] <;>
        simp [take, takeAll, Reading.blank, Reading.text, Prose.read, Piece.unknownTags,
          Piece.defaults, Piece.textLines, ht, hd]
    | default value =>
      have hd : d.fill [.default value] = (d.setDefault? value).getD d :=
        (Declaration.take_eq_fill _ d).symm
      have hs := Declaration.isSome_setDefault? value d
      cases hv : d.setDefault? value <;>
        simp [take, takeAll, Reading.default, Piece.unknownTags, Piece.defaults, Piece.textLines,
          hd, ← hs, hv]
    | unknown name =>
      have hd : d.fill [.unknown name] = d := (Declaration.take_eq_fill _ d).symm
      simp [take, takeAll, Piece.unknownTags, Piece.defaults, Piece.textLines, hd]
    | param _ | result _ | type _ | nothing =>
      simp [take, takeAll, mapCurrent, Piece.unknownTags, Piece.defaults, Piece.textLines,
        Declaration.take_eq_fill]
  · cases x <;>
      simp [take, takeAll, Piece.unknownTags, mapCurrent, Reading.blank, Reading.text,
        Reading.default]
  · cases x with
    | text t =>
      by_cases ht : t = [] <;>
        simp [take, takeAll, Reading.blank, Reading.text, Prose.read, Piece.unknownTags,
          Piece.defaults, Piece.textLines, ht]
    | default _ | unknown _ | param _ | result _ | type _ | nothing =>
      simp [take, takeAll, mapCurrent, Reading.default, Piece.unknownTags, Piece.defaults,
        Piece.textLines]

theorem Consistent.takeAll (hr : r.Consistent) (xs : List Piece) : (r.takeAll xs).Consistent :=
  fun hs => Option.map_eq_none_iff.2 (hr hs)

/-- Lines of one segment are read at once. -/
theorem foldl_step (hr : r.Consistent) (ho : ∀ l ∈ ls, l.opens = false) (ht : .text [] ∉ ls) :
    ls.foldl step r = r.takeAll (ls.map TagLine.piece) := by
  induction ls generalizing r with
  | nil => exact (takeAll_nil r).symm
  | cons l ls ih =>
    have hl : l ≠ .text [] := fun h => ht (h ▸ List.mem_cons_self)
    rw [List.foldl_cons, step_eq_take (ho l List.mem_cons_self) hl, take_eq_takeAll hr,
      ih (hr.takeAll _) (fun l hl => ho l (List.mem_cons_of_mem _ hl))
        (fun h => ht (List.mem_cons_of_mem _ h)), ← takeAll_append]
    rfl

/-- The default value that waits behind a segment. -/
def waitingBehind (s : Segment) (waiting : Option Text) : Option Text :=
  if s.isProperty then none
  else if s.isNamed then (Piece.defaults s.pieces).getLast?.or waiting
  else waiting

theorem step_opener_of_none (h : s.opener.declared.name = none) (r : Reading) :
    r.step s.opener = r.skip := by
  obtain ⟨opener, body, ho, hc⟩ := s
  cases opener with
  | blank | text _ | default _ => exact Bool.noConfusion ho
  | tag name rest =>
    have hn : (Declared.ofText rest).name = none := h
    simp only [TagLine.opens, TagLine.keyword?, Option.any_some] at ho
    simp only [step, tag, member, hn]
    cases hk : Keyword.ofName name with
    | wholeClass | property | event | method => rfl
    | param | returns | default | type | unknown => exact absurd (hk ▸ ho) (by decide)

theorem step_opener_of_some {n : Text} (h : s.opener.declared.name = some n) (r : Reading) :
    r.step s.opener =
      { r.openWith ⟨n, s.opener.declared.description, s.subject r.waiting⟩ with
        waiting := if s.isProperty then none else r.waiting } := by
  obtain ⟨opener, body, ho, hc⟩ := s
  cases opener with
  | blank | text _ | default _ => exact Bool.noConfusion ho
  | tag name rest =>
    have hn : (Declared.ofText rest).name = some n := h
    simp only [TagLine.opens, TagLine.keyword?, Option.any_some] at ho
    simp only [step, tag, member, hn, Segment.isProperty, Segment.isNamed, Segment.subject,
      TagLine.keyword?, TagLine.declared]
    cases hk : Keyword.ofName name with
    | wholeClass | property | event | method => rfl
    | param | returns | default | type | unknown => exact absurd (hk ▸ ho) (by decide)

theorem isProperty_subject (hs : s.isNamed = true) (waiting : Option Text) :
    (s.subject waiting).isProperty = s.isProperty := by
  rw [Segment.isProperty, hs, Segment.subject]
  split
  all_goals simp_all [Subject.isProperty, Detail.isProperty]

theorem addProse_fill (n : Text) (s : Segment) (subject : Subject) :
    (Declaration.fill s.pieces ⟨n, s.opener.declared.description, subject⟩).addProse
        (Piece.prose s.pieces) = ⟨n, s.summary, subject.fill s.pieces⟩ := by
  by_cases hd : s.opener.declared.description = [] <;> by_cases hp : Piece.prose s.pieces = [] <;>
    simp [Declaration.addProse, Declaration.fill, Segment.summary, hd, hp,
      List.intercalate_cons_cons]

theorem foldl_step_body (hr : r.Consistent) (ht : .text [] ∉ s.body) :
    s.body.foldl step r = r.takeAll s.pieces := foldl_step hr s.closed ht

/-- Reading a segment finds its notes and settles which default value waits behind it. -/
theorem foldl_step_lines (ht : .text [] ∉ s.body) (r : Reading) :
    (s.lines.foldl step r).found = r.found ++ s.notes [] r.waiting ∧
      (s.lines.foldl step r).leading = r.leading ∧
      (s.lines.foldl step r).waiting = waitingBehind s r.waiting := by
  rw [Segment.lines, List.foldl_cons]
  cases hn : s.opener.declared.name with
  | none =>
    have hc : r.skip.Consistent := fun _ => rfl
    have hs : s.isNamed = false := by rw [Segment.isNamed, hn]; rfl
    rw [step_opener_of_none hn, foldl_step_body hc ht]
    refine ⟨?_, ?_, ?_⟩
    · simp [found, takeAll, skip, close, Segment.notes, Segment.declaration?, hn]
    · simp [takeAll, skip, close]
    · simp [takeAll, skip, close, waitingBehind, Segment.isProperty, hs]
  | some n =>
    have hs : s.isNamed = true := by rw [Segment.isNamed, hn]; rfl
    rw [step_opener_of_some hn, foldl_step_body (fun h => Bool.noConfusion h) ht]
    refine ⟨?_, ?_, ?_⟩
    · have hd := addProse_fill n s (s.subject r.waiting)
      have hp : ((Piece.textLines s.pieces).foldl Prose.read {}).text = Piece.prose s.pieces :=
        Prose.foldl_read _
      have hf : firstText [s.summary, []] = s.summary := by
        by_cases h : s.summary = [] <;> simp [h]
      simp [found, takeAll, openWith, close, Segment.notes, Segment.declaration?, hn, hf, hp, hd]
    · simp [takeAll, openWith, close]
    · have hi := isProperty_subject hs r.waiting
      cases hp : s.isProperty <;> simp [takeAll, openWith, close, waitingBehind, hs, hp, hi]

end Reading

namespace Segments

variable {lead : List Piece} {earlier rest : List Segment}

/-- All lines stand in front of the segments or in one of them, in order. -/
theorem ofLines_append (ls : List TagLine) :
    (ofLines ls).lead ++ (ofLines ls).segments.flatMap Segment.lines = ls := by
  induction ls with
  | nil => rfl
  | cons l ls ih =>
    have hl : ofLines (l :: ls) = cons l (ofLines ls) := rfl
    rw [hl, cons]
    split
    · simpa [Segment.lines] using ih
    · simpa using ih

@[simp] theorem waiting_concat (lead : List Piece) (earlier : List Segment) (s : Segment) :
    waiting lead (earlier ++ [s]) = Reading.waitingBehind s (waiting lead earlier) := by
  unfold waiting Reading.waitingBehind
  cases hp : s.isProperty with
  | true =>
    have hr : (earlier ++ [s]).rtakeWhile (fun s => !s.isProperty) = [] :=
      List.rtakeWhile_concat_neg _ _ _ (by simp [hp])
    simp [hr, hp, Piece.defaults]
  | false =>
    have hr : (earlier ++ [s]).rtakeWhile (fun s => !s.isProperty) =
        earlier.rtakeWhile (fun s => !s.isProperty) ++ [s] :=
      List.rtakeWhile_concat_pos _ _ _ (by simp [hp])
    cases hn : s.isNamed <;>
      simp [hr, hp, hn, Piece.defaults, List.getLast?_append, Option.or_assoc]

@[simp] theorem unknownTags_inherit (xs : List Piece) (text : Text) :
    (Piece.unknownTags xs).map (Reading.inherit text) = Piece.unknownTags xs := by
  rw [Piece.unknownTags, List.map_filterMap]
  congr 1
  funext x
  cases x <;> rfl

@[simp] theorem notes_inherit (s : Segment) (text : Text) (waiting : Option Text) :
    (s.notes [] waiting).map (Reading.inherit text) = s.notes text waiting := by
  rw [Segment.notes, List.map_append, unknownTags_inherit]
  cases hn : s.opener.declared.name with
  | none => simp [Segment.notes, Segment.declaration?, hn]
  | some n =>
    by_cases hs : s.summary = [] <;>
      simp [Segment.notes, Segment.declaration?, hn, Reading.inherit, hs]

theorem foldl_step_segments (ht : ∀ s ∈ rest, .text [] ∉ s.body)
    (hw : r.waiting = waiting lead earlier) :
    ((rest.flatMap Segment.lines).foldl Reading.step r).leading = r.leading ∧
      ((rest.flatMap Segment.lines).foldl Reading.step r).found.map
          (Reading.inherit (Piece.prose lead)) =
        r.found.map (Reading.inherit (Piece.prose lead)) ++ notesFrom lead earlier rest := by
  -- Which default value waits depends on all earlier segments, so these grow in the induction.
  induction rest generalizing earlier r with
  | nil => exact ⟨rfl, (List.append_nil _).symm⟩
  | cons s rest ih =>
    obtain ⟨hf, hl, hb⟩ := Reading.foldl_step_lines (ht s List.mem_cons_self) r
    have hw' : (s.lines.foldl Reading.step r).waiting = waiting lead (earlier ++ [s]) := by
      simp [hb, hw]
    obtain ⟨hl', hf'⟩ := ih (fun s hs => ht s (List.mem_cons_of_mem _ hs)) hw'
    rw [List.flatMap_cons, List.foldl_append]
    refine ⟨hl'.trans hl, ?_⟩
    simp [hf', hf, hw, notesFrom]

end Segments

@[simp] theorem ofText_ne_text_nil (raw : Text) : TagLine.ofText raw ≠ .text [] := by
  simp only [TagLine.ofText]
  split
  · exact TagLine.noConfusion
  · rename_i hs
    split
    · exact TagLine.noConfusion
    · split
      · exact TagLine.noConfusion
      · exact fun h => hs (TagLine.text.inj h)

theorem Reading.finish_eq (r : Reading) : r.finish =
    (if r.leading.text = [] then [] else [.summary r.leading.text]) ++
      r.found.map (inherit r.leading.text) := by
  unfold finish
  split
  · rename_i hl
    have hi : ∀ a, inherit [] a = a := by
      intro a
      cases a with
      | summary _ | unrecognized _ => rfl
      | declared d =>
        obtain ⟨name, summary, subject⟩ := d
        by_cases hs : summary = [] <;> simp [inherit, hs]
    rw [hl, List.map_congr_left (fun a _ => hi a), List.map_id']
    rfl
  · rfl

theorem notes_eq_segments (lines : List Text) :
    notes lines = (Segments.ofLines (lines.map TagLine.ofText)).notes := by
  have happ := Segments.ofLines_append (lines.map TagLine.ofText)
  have hmem : .text [] ∉ lines.map TagLine.ofText := by
    simp
  generalize Segments.ofLines (lines.map TagLine.ofText) = x at happ ⊢
  rw [← happ, List.mem_append, not_or] at hmem
  have hbody : ∀ s ∈ x.segments, .text [] ∉ s.body := fun s hs hb =>
    hmem.2 (List.mem_flatMap.2 ⟨s, hs, List.mem_cons_of_mem _ hb⟩)
  have hlead : x.lead.foldl Reading.step {} = Reading.takeAll (x.lead.map TagLine.piece) {} :=
    Reading.foldl_step (fun h => Bool.noConfusion h) x.closed hmem.1
  have htext : (Reading.takeAll (x.lead.map TagLine.piece) {}).leading.text =
      Piece.prose (x.lead.map TagLine.piece) := Prose.foldl_read _
  have hwait : (Reading.takeAll (x.lead.map TagLine.piece) {}).waiting =
      Segments.waiting (x.lead.map TagLine.piece) [] := by
    simp [Reading.takeAll, Segments.waiting]
  obtain ⟨hl, hf⟩ := Segments.foldl_step_segments hbody hwait
  rw [notes, ← happ, List.foldl_append, hlead, Reading.finish_eq, hl, htext, hf, Segments.notes]
  simp [Reading.found, Reading.takeAll]

section Headings

@[simp] theorem Subject.keyword_fill (s : Subject) (xs : List Piece) :
    (s.fill xs).keyword = s.keyword := by
  cases s with
  | wholeClass => rfl
  | member type detail => cases detail <;> rfl

theorem filterMap_heading?_unknownTags (h : ∀ l ∈ ls, l.opens = false) :
    (Piece.unknownTags (ls.map TagLine.piece)).filterMap Note.heading? =
      ls.filterMap TagLine.heading? := by
  rw [Piece.unknownTags, List.filterMap_filterMap, List.filterMap_map]
  refine List.filterMap_congr fun l hl => ?_
  have ho := h l hl
  cases l with
  | blank | text _ | default _ => rfl
  | tag name rest =>
    simp only [TagLine.opens, TagLine.keyword?, Option.any_some] at ho
    simp only [Function.comp, TagLine.piece, TagLine.heading?]
    cases hk : Keyword.ofName name with
    | wholeClass | property | event | method => exact absurd (hk ▸ ho) (by decide)
    | param => cases (Declared.ofText rest).name <;> rfl
    | returns | default | type | unknown => rfl

theorem heading?_opener (s : Segment) (waiting : Option Text) : s.opener.heading? =
    s.opener.declared.name.map ((s.subject waiting).keyword, ·) := by
  obtain ⟨opener, body, ho, hc⟩ := s
  cases opener with
  | blank | text _ | default _ => exact Bool.noConfusion ho
  | tag name rest =>
    simp only [TagLine.opens, TagLine.keyword?, Option.any_some] at ho
    simp only [TagLine.heading?, Segment.subject, TagLine.keyword?]
    cases hk : Keyword.ofName name with
    | wholeClass | property | event | method => rfl
    | param | returns | default | type | unknown => exact absurd (hk ▸ ho) (by decide)

theorem filterMap_heading?_notes (s : Segment) (text : Text) (waiting : Option Text) :
    (s.notes text waiting).filterMap Note.heading? = s.lines.filterMap TagLine.heading? := by
  rw [Segment.notes, List.filterMap_append, Segment.lines, Segment.pieces,
    filterMap_heading?_unknownTags s.closed, List.filterMap_cons, heading?_opener s waiting]
  cases hn : s.opener.declared.name with
  | none => simp [Segment.declaration?, hn]
  | some n => simp [Segment.declaration?, hn, Note.heading?]

theorem filterMap_heading?_notesFrom (lead : List Piece) (earlier rest : List Segment) :
    (Segments.notesFrom lead earlier rest).filterMap Note.heading? =
      (rest.flatMap Segment.lines).filterMap TagLine.heading? := by
  induction rest generalizing earlier with
  | nil => rfl
  | cons s rest ih =>
    rw [Segments.notesFrom, List.filterMap_append, ih, filterMap_heading?_notes, List.flatMap_cons,
      List.filterMap_append]

theorem filterMap_heading?_segments (x : Segments) : x.notes.filterMap Note.heading? =
    (x.lead ++ x.segments.flatMap Segment.lines).filterMap TagLine.heading? := by
  have hs : ∀ text : Text,
      (if text = [] then [] else [Note.summary text]).filterMap Note.heading? = [] := by
    intro text
    split <;> rfl
  rw [Segments.notes, List.filterMap_append, List.filterMap_append, hs,
    filterMap_heading?_unknownTags x.closed, filterMap_heading?_notesFrom, List.filterMap_append,
    List.nil_append]

end Headings

/-- The notes of a block are what its segments say, one for each member tag with a name and each
unknown tag, in the order of the lines. -/
theorem notes_by_segment (lines : List Text) :
    notes lines = (Segments.ofLines (lines.map TagLine.ofText)).notes ∧
      (notes lines).filterMap Note.heading? =
        (lines.map TagLine.ofText).filterMap TagLine.heading? := by
  refine ⟨notes_eq_segments lines, ?_⟩
  rw [notes_eq_segments, filterMap_heading?_segments, Segments.ofLines_append]

/-- A default value need not stand in front of all segments to wait for a property: here it stands
below an event. -/
theorem default_below_event :
    let lines : List Text := ["@event Shown", "Default: 5", "@property Delay"]
    let x := Segments.ofLines (lines.map TagLine.ofText)
    x.lead = [] ∧
      x.segments.map Segment.lines =
        [[.tag "event" "Shown", .default "5"], [.tag "property" "Delay"]] ∧
      notes lines =
        [.declared ⟨"Shown", [], .member [] (.event [])⟩,
          .declared ⟨"Delay", [], .member [] (.property (some "5"))⟩] := by
  decide +kernel

end ApiBook.Script
