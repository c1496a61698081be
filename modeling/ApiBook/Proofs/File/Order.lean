import ApiBook.File.Search
import ApiBook.Proofs.File.Place
import ApiBook.Proofs.Text.Sorting

/-! # Order and spelling of paths

Paths are sorted by their components. Among paths with the same components the first one of a list
survives, in the spelling that it has there. Whatever the spelling, the same is read.
-/

namespace ApiBook

namespace Path

namespace Component

variable {c d e : Component}

theorem le_total (c d : Component) : (c.le d || d.le c) = true := by
  cases c <;> cases d <;> first | rfl | exact Text.le_total _ _

theorem le_trans (h : c.le d = true) (h' : d.le e = true) : c.le e = true := by
  cases c <;> cases d <;> cases e <;> first | rfl | contradiction | exact Text.le_trans h h'

theorem le_antisymm (h : c.le d = true) (h' : d.le c = true) : c = d := by
  cases c <;> cases d <;>
    first | rfl | contradiction | exact congrArg name (Text.le_antisymm h h')

end Component

section Components

variable {c d : Component} {cs ds es : List Component}

theorem componentsLe_cons_iff : componentsLe (c :: cs) (d :: ds) = true ↔
    c = d ∧ componentsLe cs ds = true ∨ c ≠ d ∧ c.le d = true := by
  by_cases h : c = d <;> simp [componentsLe, h]

theorem componentsLe_total (cs ds : List Component) :
    (componentsLe cs ds || componentsLe ds cs) = true := by
  induction cs generalizing ds with
  | nil => rfl
  | cons c cs ih =>
    cases ds with
    | nil => rfl
    | cons d ds =>
      by_cases h : c = d
      · simpa [componentsLe, h] using ih ds
      · simpa [componentsLe, h, Ne.symm h] using Component.le_total c d

theorem componentsLe_antisymm (h : componentsLe cs ds = true) (h' : componentsLe ds cs = true) :
    cs = ds := by
  induction cs generalizing ds with
  | nil =>
    cases ds with
    | nil => rfl
    | cons d ds => cases h'
  | cons c cs ih =>
    cases ds with
    | nil => cases h
    | cons d ds =>
      rcases componentsLe_cons_iff.1 h with ⟨rfl, hr⟩ | ⟨hne, hr⟩
      · rcases componentsLe_cons_iff.1 h' with ⟨-, hr'⟩ | ⟨hne, -⟩
        · exact congrArg (c :: ·) (ih hr hr')
        · exact absurd rfl hne
      · rcases componentsLe_cons_iff.1 h' with ⟨rfl, -⟩ | ⟨-, hr'⟩
        · exact absurd rfl hne
        · exact absurd (Component.le_antisymm hr hr') hne

theorem componentsLe_trans (h : componentsLe cs ds = true) (h' : componentsLe ds es = true) :
    componentsLe cs es = true := by
  induction cs generalizing ds es with
  | nil => rfl
  | cons c cs ih =>
    cases ds with
    | nil => cases h
    | cons d ds =>
      cases es with
      | nil => cases h'
      | cons e es =>
        apply componentsLe_cons_iff.2
        rcases componentsLe_cons_iff.1 h with ⟨rfl, hr⟩ | ⟨hcd, hr⟩
        · rcases componentsLe_cons_iff.1 h' with ⟨rfl, hr'⟩ | ⟨hde, hr'⟩
          · exact .inl ⟨rfl, ih hr hr'⟩
          · exact .inr ⟨hde, hr'⟩
        · rcases componentsLe_cons_iff.1 h' with ⟨rfl, -⟩ | ⟨-, hr'⟩
          · exact .inr ⟨hcd, hr⟩
          · refine .inr ⟨?_, Component.le_trans hr hr'⟩
            -- Between two components that are equal there is no other one.
            rintro rfl
            exact hcd (Component.le_antisymm hr hr')

end Components

variable {p q r : Path}

theorem same_iff : same p q = true ↔ p.components = q.components := beq_iff_eq

@[simp] theorem same_refl (p : Path) : same p p = true := same_iff.2 rfl

theorem same_symm (h : same p q = true) : same q p = true := same_iff.2 (same_iff.1 h).symm

theorem same_trans (h : same p q = true) (h' : same q r = true) : same p r = true :=
  same_iff.2 ((same_iff.1 h).trans (same_iff.1 h'))

theorem same_eq_of_same (h : same p q = true) : same p = same q := by
  funext r
  unfold same
  rw [same_iff.1 h]

theorem le_total (p q : Path) : (p.le q || q.le p) = true := componentsLe_total _ _

theorem le_trans (p q r : Path) (h : p.le q = true) (h' : q.le r = true) : p.le r = true :=
  componentsLe_trans h h'

theorem same_of_le_of_le (h : p.le q = true) (h' : q.le p = true) : same p q = true :=
  same_iff.2 (componentsLe_antisymm h h')

theorem le_of_same (h : same p q = true) : p.le q = true := by
  have hle : componentsLe p.components p.components = true := by
    simpa using componentsLe_total p.components p.components
  unfold le
  rwa [← same_iff.1 h]

/-! ## Spellings -/

/-- The piece that gives a component. The root and a dot at the start of a path have none that is
followed. -/
def Component.piece? : Component → Option Text
  | .root | .here => none
  | .up => some ".."
  | .name s => some s

/-- Whether a piece leads anywhere from a directory. -/
def Component.isStep (piece : Text) : Bool := (ofPiece? piece).isSome

theorem Component.piece?_of_ofPiece? {piece : Text} {c : Component} (h : ofPiece? piece = some c) :
    c.piece? = some piece := by
  unfold ofPiece? at h
  split at h
  · cases h
  split at h
  · rename_i hup
    obtain rfl := Option.some.inj h
    rw [hup]
    rfl
  · obtain rfl := Option.some.inj h
    rfl

theorem filterMap_ofPiece? (pieces : List Text) :
    (pieces.filterMap Component.ofPiece?).filterMap Component.piece? =
      pieces.filter Component.isStep := by
  induction pieces with
  | nil => rfl
  | cons piece pieces ih =>
    cases hc : Component.ofPiece? piece with
    | none =>
      rw [List.filterMap_cons_none hc, List.filter_cons_of_neg (by simp [Component.isStep, hc])]
      exact ih
    | some c =>
      rw [List.filterMap_cons_some hc, List.filter_cons_of_pos (by simp [Component.isStep, hc]),
        List.filterMap_cons_some (Component.piece?_of_ofPiece? hc), ih]

/-- The components tell which pieces of a path are followed. -/
theorem filterMap_components (p : Path) : p.components.filterMap Component.piece? =
    p.pieces.filter Component.isStep := by
  unfold components
  rw [List.filterMap_append, filterMap_ofPiece?]
  split_ifs <;> rfl

@[simp] theorem root_mem_components_iff : .root ∈ p.components ↔ p.isAbsolute = true := by
  have hpieces : .root ∉ p.pieces.filterMap Component.ofPiece? := by
    intro h
    obtain ⟨piece, -, hc⟩ := List.mem_filterMap.1 h
    cases Component.piece?_of_ofPiece? hc
  unfold components
  rw [List.mem_append, or_iff_left hpieces]
  split_ifs with habs hdot
  · exact iff_of_true List.mem_cons_self habs
  · exact iff_of_false (by simp) habs
  · exact iff_of_false List.not_mem_nil habs

end Path

namespace Tree

variable {t : Tree} {p q : Path} {kinds : List Text → Option Kind} {names place : List Text}

theorem follow_of_not_isStep {piece : Text} (h : ¬ Path.Component.isStep piece)
    (hstep : Spot.follow kinds names piece = .ok place) : place = names := by
  have hskip : piece = [] ∨ piece = "." := by
    by_contra hne
    apply h
    unfold Path.Component.isStep Path.Component.ofPiece?
    rw [if_neg hne]
    split <;> rfl
  unfold Spot.follow at hstep
  split at hstep
  · cases hstep
  · cases hstep
  · rw [if_pos hskip] at hstep
    exact (Except.ok.inj hstep).symm

theorem foldlM_follow_filter {pieces : List Text}
    (h : pieces.foldlM (Spot.follow kinds) names = .ok place) :
    (pieces.filter Path.Component.isStep).foldlM (Spot.follow kinds) names = .ok place := by
  induction pieces generalizing names with
  | nil => exact h
  | cons piece pieces ih =>
    obtain ⟨names', hstep, hrest⟩ := bind_eq_ok_iff.1 h
    by_cases hc : Path.Component.isStep piece
    · rw [List.filter_cons_of_pos hc]
      exact bind_eq_ok_iff.2 ⟨names', hstep, ih hrest⟩
    · obtain rfl := follow_of_not_isStep hc hstep
      rw [List.filter_cons_of_neg hc]
      exact ih hrest

/-- Paths with the same components lead to the same place, if they lead anywhere. -/
theorem place_eq_of_same (h : Path.same p q) {names : List Text} (hp : t.place p = .ok place)
    (hq : t.place q = .ok names) : place = names := by
  have hc := Path.same_iff.1 h
  have hstart : startNames p = startNames q := by
    have habs : p.isAbsolute = q.isAbsolute := by
      rw [Bool.eq_iff_iff, ← Path.root_mem_components_iff, ← Path.root_mem_components_iff, hc]
    unfold startNames
    rw [habs]
  have hp := foldlM_follow_filter (place_eq_ok_iff.1 hp).2
  have hq := foldlM_follow_filter (place_eq_ok_iff.1 hq).2
  rw [← Path.filterMap_components, hc, hstart, Path.filterMap_components] at hp
  exact Except.ok.inj (hp.symm.trans hq)

theorem read_eq_of_same (h : Path.same p q) {s s' : Text} (hp : t.read p = .ok s)
    (hq : t.read q = .ok s') : s = s' := by
  rw [read_eq] at hp hq
  obtain ⟨place, hplace, hs⟩ := bind_eq_ok_iff.1 hp
  obtain ⟨names, hnames, hs'⟩ := bind_eq_ok_iff.1 hq
  obtain rfl := place_eq_of_same h hplace hnames
  exact Except.ok.inj (hs.symm.trans hs')

end Tree

namespace Search

variable {p q : Path} {ps qs : List Path}

theorem dedup_sublist (ps : List Path) : (dedup ps).Sublist ps := by
  fun_induction dedup ps with
  | case1 p q ps _ ih => exact ih.trans ((List.sublist_cons_self q ps).cons_cons p)
  | case2 p q ps _ ih => exact ih.cons_cons p
  | case3 ps => exact List.Sublist.refl ps

/-- In an ascending list a path that differs from the one behind it differs from all behind it. -/
theorem not_same_of_mem (h : (p :: q :: ps).Pairwise fun p q => p.le q) (hpq : ¬ Path.same p q)
    {r : Path} (hr : r ∈ q :: ps) : ¬ Path.same p r := by
  intro hpr
  have hqr : Path.le q r := by
    rcases List.mem_cons.1 hr with rfl | hr
    · exact Path.le_of_same (Path.same_refl r)
    · exact List.rel_of_pairwise_cons h.of_cons hr
  have hrp : Path.le r p := Path.le_of_same (Path.same_symm hpr)
  refine hpq (Path.same_of_le_of_le ?_ (Path.le_trans q r p hqr hrp))
  exact List.rel_of_pairwise_cons h List.mem_cons_self

theorem dedup_pairwise (h : ps.Pairwise fun p q => p.le q) :
    (dedup ps).Pairwise fun p q => p.le q ∧ ¬ Path.same p q := by
  fun_induction dedup ps with
  | case1 p q ps _ ih => exact ih (h.sublist ((List.sublist_cons_self q ps).cons_cons p))
  | case2 p q ps hpq ih =>
    refine List.pairwise_cons.2 ⟨?_, ih h.of_cons⟩
    intro r hr
    have hr := (dedup_sublist _).subset hr
    exact ⟨List.rel_of_pairwise_cons h hr, not_same_of_mem h hpq hr⟩
  | case3 ps hps =>
    match ps, hps with
    | [], _ => exact .nil
    | [p], _ => exact List.pairwise_singleton _ p
    | p :: q :: ps, hps => exact absurd rfl (hps p q ps)

theorem find?_same_cons_of_pos (h : Path.same p q) (ps : List Path) :
    (q :: ps).find? (Path.same p) = some p ↔ p = q := by
  simp [h, eq_comm]

theorem ne_of_not_same (h : ¬ Path.same p q) : p ≠ q := by
  rintro rfl
  exact h (Path.same_refl p)

/-- Of the paths with the same components the first one stays. -/
theorem mem_dedup_iff (h : ps.Pairwise fun p q => p.le q) :
    p ∈ dedup ps ↔ ps.find? (Path.same p) = some p := by
  fun_induction dedup ps with
  | case1 q r ps hqr ih =>
    refine (ih (h.sublist ((List.sublist_cons_self r ps).cons_cons q))).trans ?_
    by_cases hq : Path.same p q
    · exact (find?_same_cons_of_pos hq ps).trans (find?_same_cons_of_pos hq (r :: ps)).symm
    · have hr : ¬ Path.same p r := by
        intro hr
        exact hq (Path.same_trans hr (Path.same_symm hqr))
      rw [List.find?_cons_of_neg hq, List.find?_cons_of_neg hq, List.find?_cons_of_neg hr]
  | case2 q r ps hqr ih =>
    by_cases hq : Path.same p q
    · have hp : p ∉ dedup (r :: ps) := by
        intro hp
        exact not_same_of_mem h hqr ((dedup_sublist _).subset hp) (Path.same_symm hq)
      rw [find?_same_cons_of_pos hq, List.mem_cons, or_iff_left hp]
    · rw [List.find?_cons_of_neg hq, List.mem_cons, or_iff_right (ne_of_not_same hq)]
      exact ih h.of_cons
  | case3 ps hps =>
    match ps, hps with
    | [], _ => simp
    | [q], _ =>
      by_cases hq : Path.same p q
      · rw [find?_same_cons_of_pos hq, List.mem_singleton]
      · rw [List.find?_cons_of_neg hq, List.mem_singleton]
        exact iff_of_false (ne_of_not_same hq) nofun
    | q :: r :: ps, hps => exact absurd rfl (hps q r ps)

theorem arrange_pairwise (ps : List Path) :
    (arrange ps).Pairwise fun p q => p.le q ∧ ¬ Path.same p q :=
  dedup_pairwise (List.pairwise_mergeSort Path.le_trans Path.le_total ps)

theorem exists_find?_same (h : p ∈ ps) : ∃ q, ps.find? (Path.same p) = some q :=
  Option.isSome_iff_exists.1 (List.find?_isSome.2 ⟨p, h, Path.same_refl p⟩)

theorem find?_same_eq_some (h : p ∈ ps) (hone : ∀ q ∈ ps, Path.same p q → p = q) :
    ps.find? (Path.same p) = some p := by
  obtain ⟨q, hq⟩ := exists_find?_same h
  rw [hq, ← hone q (List.mem_of_find?_eq_some hq) (List.find?_some hq)]

/-- Sorting keeps the order of paths with the same components, so the first one in the list as it
was given stays. -/
theorem mem_arrange_iff : p ∈ arrange ps ↔ ps.find? (Path.same p) = some p := by
  have hle : ∀ q r, Path.same p q → Path.same p r → q.le r := by
    intro q r hq hr
    exact Path.le_of_same (Path.same_trans (Path.same_symm hq) hr)
  have h := List.pairwise_mergeSort Path.le_trans Path.le_total ps
  rw [← find?_mergeSort Path.le_trans Path.le_total hle]
  exact mem_dedup_iff h

theorem arrange_eq_iff : arrange ps = arrange qs ↔ ∀ p, p ∈ arrange ps ↔ p ∈ arrange qs := by
  constructor
  · intro h p
    rw [h]
  · refine eq_of_ascending ?_ (arrange_pairwise ps) (arrange_pairwise qs)
    rintro p q ⟨hpq, hne⟩ ⟨hqp, -⟩
    exact hne (Path.same_of_le_of_le hpq hqp)

/-- Lists of the same paths are arranged alike if and only if each path is first spelled alike in
both of them. -/
theorem arrange_eq_iff_of_mem (h : ∀ p, p ∈ ps ↔ p ∈ qs) : arrange ps = arrange qs ↔
    ∀ p ∈ ps, ps.find? (Path.same p) = qs.find? (Path.same p) := by
  rw [arrange_eq_iff]
  constructor
  · intro hmem p hp
    obtain ⟨q, hq⟩ := exists_find?_same hp
    have hpq : Path.same p = Path.same q := Path.same_eq_of_same (List.find?_some hq)
    rw [hpq] at hq ⊢
    rw [hq, mem_arrange_iff.1 ((hmem q).1 (mem_arrange_iff.2 hq))]
  · intro hfind p
    rw [mem_arrange_iff, mem_arrange_iff]
    constructor
    · intro hp
      exact (hfind p (List.mem_of_find?_eq_some hp)).symm.trans hp
    · intro hp
      exact (hfind p ((h p).2 (List.mem_of_find?_eq_some hp))).trans hp

theorem exists_mem_arrange (h : p ∈ ps) : ∃ q ∈ arrange ps, Path.same p q := by
  obtain ⟨q, hq⟩ := exists_find?_same h
  have hpq : Path.same p q := List.find?_some hq
  refine ⟨q, mem_arrange_iff.2 ?_, hpq⟩
  rwa [← Path.same_eq_of_same hpq]

theorem arrange_subset (ps : List Path) : arrange ps ⊆ ps := by
  intro p hp
  exact List.mem_of_find?_eq_some (mem_arrange_iff.1 hp)

end Search

end ApiBook
