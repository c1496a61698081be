import ApiBook.Proofs.Script.Result

/-! # Reading the notes of printed blocks

The lines of a printed block are read in order: the tag opens a declaration without text or detail,
the summary becomes its body, and the lines below fill its detail. So the block gives exactly the
declaration it was printed from.
-/

namespace ApiBook.Script

variable {l n s p typeName : Text} {ps : List Param} {d : Declaration} {b : Prose} {m : Member}
  {c : ClassDoc} {detail : Detail}

namespace Prose

theorem push_push (hl : l ≠ []) (b : Prose) (p : Text) :
    (b.push l).push p = b.push (l ++ '\n' :: p) := by
  unfold push
  split <;> simp_all

theorem push_pause_push (hl : l ≠ []) (b : Prose) (p : Text) :
    (b.push l).pause.push p = b.push (l ++ '\n' :: '\n' :: p) := by
  unfold push pause
  split <;> simp_all

end Prose

section Summaries

theorem IsProse.ne_nil (h : IsProse p) : p ≠ [] := by
  cases h with
  | line hl => exact hl.ne_nil
  | next hl _ => exact List.append_ne_nil_of_left_ne_nil hl.ne_nil _
  | paragraph hl _ => exact List.append_ne_nil_of_left_ne_nil hl.ne_nil _

theorem IsProse.proseLines_eq (h : IsProse p) : proseLines p = Text.fields (· == '\n') p :=
  if_neg h.ne_nil

end Summaries

namespace Reading

def run (r : Reading) (ls : List Text) : Reading := (ls.map TagLine.ofText).foldl step r

@[simp] theorem run_nil (r : Reading) : r.run [] = r := rfl

@[simp] theorem run_cons (r : Reading) (l : Text) (ls : List Text) :
    r.run (l :: ls) = (r.step (TagLine.ofText l)).run ls := rfl

@[simp] theorem run_append (r : Reading) (ls ls' : List Text) :
    r.run (ls ++ ls') = (r.run ls).run ls' := by
  simp [run]

/-- A reading in which a declaration is open and nothing else is found. -/
def opened (d : Declaration) (b : Prose) : Reading := { current := some d, body := b }

theorem run_fields (h : IsProse p) (d : Declaration) (b : Prose) :
    (opened d b).run (Text.fields (· == '\n') p) = opened d (b.push p) := by
  induction h generalizing b with
  | line hl =>
    rw [Text.fields_of_notMem hl.single, run_cons, hl.lexed]
    rfl
  | next hl _ ih =>
    rw [Text.fields_append_cons hl.single, run_cons, hl.lexed, ← Prose.push_push hl.ne_nil]
    exact ih (b.push _)
  | @paragraph l p hl _ ih =>
    have hgap : Text.fields (· == '\n') ('\n' :: p) = [] :: Text.fields (· == '\n') p := rfl
    rw [Text.fields_append_cons hl.single, hgap, run_cons, run_cons, hl.lexed,
      ← Prose.push_pause_push hl.ne_nil]
    exact ih (b.push _).pause

theorem run_proseLines (h : IsSummary s) (d : Declaration) :
    (opened d {}).run (proseLines s) = opened d { text := s } := by
  rcases h with rfl | h
  · rfl
  · rw [h.proseLines_eq, run_fields h]
    rfl

def bare : Detail → Detail
  | .property _ => .property none
  | .event _ => .event []
  | .method _ _ => .method [] none

theorem step_memberTag (ht : IsTypeName typeName) (hn : IsName n) :
    ({} : Reading).step (.tag detail.label (declaredText typeName n [])) =
      opened ⟨n, [], .member typeName (bare detail)⟩ {} := by
  cases detail <;> rw [step, tag, ofText_declaredText ht hn isDescription_nil] <;> rfl

theorem step_classTag (hn : IsName n) :
    ({} : Reading).step (.tag "class" (declaredText [] n [])) = opened ⟨n, [], .wholeClass⟩ {} := by
  rw [step, tag, ofText_declaredText isTypeName_nil hn isDescription_nil]
  rfl

theorem step_param {q : Param} (h : PrintableParam q) (d : Declaration) (b : Prose) :
    (opened d b).step (TagLine.ofText (paramLine q)) = opened (d.addParam q) b := by
  rw [paramLine, ofText_declaredTag (by decide) h.typeName h.name h.description, step, tag,
    ofText_declaredText h.typeName h.name h.description]
  rfl

theorem run_paramLines (h : ∀ q ∈ ps, PrintableParam q) (hd : detail.params?.isSome) :
    (opened ⟨n, s, .member typeName detail⟩ b).run (ps.map paramLine) =
      opened ⟨n, s, .member typeName (detail.withParams (detail.params ++ ps))⟩ b := by
  induction ps generalizing detail with
  | nil => cases detail <;> simp_all [Detail.withParams, Detail.params, Detail.params?]
  | cons q ps ih =>
    have hq : Declaration.addParam q ⟨n, s, .member typeName detail⟩ =
        ⟨n, s, .member typeName (detail.withParams (detail.params ++ [q]))⟩ := rfl
    have hd' : (detail.withParams (detail.params ++ [q])).params?.isSome := by
      cases detail <;> exact hd
    have hp : (detail.withParams (detail.params ++ [q])).params = detail.params ++ [q] := by
      cases detail <;> first | exact absurd hd Bool.false_ne_true | rfl
    have hw : ∀ qs, (detail.withParams (detail.params ++ [q])).withParams qs =
        detail.withParams qs := by
      cases detail <;> exact fun _ => rfl
    rw [List.map_cons, run_cons, step_param (h q List.mem_cons_self), hq,
      ih (fun q hq => h q (List.mem_cons_of_mem _ hq)) hd', hp, hw, List.append_assoc,
      List.singleton_append]

theorem step_returns {w : Text} {ws : List Text} (h : IsResult w ws) :
    (opened ⟨n, s, .member typeName (.method ps none)⟩ b).step
        (.tag "returns" (List.intercalate [' '] (w :: ws))) =
      opened ⟨n, s, .member typeName (.method ps (some (List.intercalate [' '] (w :: ws))))⟩ b := by
  obtain ⟨hr, ht⟩ := resultText_ofText h
  have hne : List.intercalate [' '] (w :: ws) ≠ [] := result_ne_nil h
  have hs : Declaration.setResult (Declared.ofText (List.intercalate [' '] (w :: ws)))
      ⟨n, s, .member typeName (.method ps none)⟩ =
        ⟨n, s, .member typeName (.method ps (some (List.intercalate [' '] (w :: ws))))⟩ := by
    have htype : (if typeName = [] then [] else typeName) = typeName := by
      split <;> simp_all
    simp only [Declaration.setResult, Declaration.mapSubject, hr, ht, if_neg hne, htype]
  exact congrArg (opened · b) hs

theorem run_detailLines (h : PrintableDetail detail) :
    (opened ⟨n, s, .member typeName (bare detail)⟩ b).run (detailLines detail) =
      opened ⟨n, s, .member typeName detail⟩ b := by
  cases detail with
  | property value =>
    cases value with
    | none => rfl
    | some v =>
      rw [detailLines, Option.map_some, Option.toList_some, run_cons, ofText_defaultLine (h v rfl)]
      rfl
  | event ps => exact run_paramLines h rfl
  | method ps returns =>
    have hps : (opened ⟨n, s, .member typeName (.method [] none)⟩ b).run (ps.map paramLine) =
        opened ⟨n, s, .member typeName (.method ps none)⟩ b := run_paramLines h.1 rfl
    rw [detailLines, run_append, bare, hps]
    cases returns with
    | none => rfl
    | some t =>
      obtain ⟨w, ws, rfl, hw⟩ := h.2 t rfl
      rw [Option.map_some, Option.toList_some, run_cons, ofText_returnsTag hw, step_returns hw]
      rfl

end Reading

theorem label_mem_keywords : ∀ detail : Detail, detail.label ∈ keywords
  | .property _ => (by decide : ("property" : Text) ∈ keywords)
  | .event _ => (by decide : ("event" : Text) ∈ keywords)
  | .method _ _ => (by decide : ("method" : Text) ∈ keywords)

theorem notes_eq (ls : List Text) : notes ls = (Reading.run {} ls).finish := rfl

theorem finish_opened (h : d.summary = []) (s : Text) :
    (Reading.opened d { text := s }).finish = [.declared { d with summary := s }] := by
  have hd : d.addProse s = { d with summary := s } := by
    unfold Declaration.addProse
    rw [if_pos h]
    split
    · rename_i hs
      rw [hs, ← h]
    · rfl
  rw [← hd]
  rfl

/-- The block of a member declares that member and nothing else. -/
theorem notes_memberLines (h : PrintableMember m) :
    notes (memberLines m) = [.declared ⟨m.name, m.summary, .member m.typeName m.detail⟩] := by
  rw [notes_eq, memberLines, Reading.run_cons, Reading.run_append,
    ofText_declaredTag (label_mem_keywords m.detail) h.typeName h.name isDescription_nil,
    Reading.step_memberTag h.typeName h.name, Reading.run_proseLines h.summary,
    Reading.run_detailLines h.detail, finish_opened rfl]

theorem notes_classLines (hn : IsName c.name) (hs : IsSummary c.summary) :
    notes (classLines c) = [.declared ⟨c.name, c.summary, .wholeClass⟩] := by
  rw [notes_eq, classLines, Reading.run_cons,
    ofText_declaredTag (by decide) isTypeName_nil hn isDescription_nil,
    Reading.step_classTag hn, Reading.run_proseLines hs, finish_opened rfl]

end ApiBook.Script
