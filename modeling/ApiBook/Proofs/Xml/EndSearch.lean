import ApiBook.Proofs.Xml.Balance
import ApiBook.Xml.EndSearch

/-! # Searching for ends in place

The search in place makes no fault and finds the first balanced end tag, and so does the reading of
the text behind the start tag. So the division in place gives the elements of every body.
-/

namespace ApiBook.Xml

open Text (size StandsAt IsOffset)

variable {a body e r s x : Text} {d i j k p q : Nat}

section Turn

theorem slice_eq_ok (h : IsOffset body i) : ∃ a r, body = a ++ r ∧ size a = i ∧
    slice body i body.size = .ok r := by
  obtain ⟨a, r, rfl, rfl⟩ := h
  refine ⟨a, r, rfl, rfl, slice_eq_ok_iff.2 ?_⟩
  simpa using Text.slice?_append a r []

theorem closing?_cases (h : IsOffset body i) :
    closing? body e i = .ok none ∧ (∀ q, i ≤ q → ¬ ClosesAt e body q) ∨
      ∃ j, closing? body e i = .ok (some j) ∧ i ≤ j ∧ ClosesAt e body j ∧
        ∀ q, i ≤ q → q < j → ¬ ClosesAt e body q := by
  obtain ⟨a, r, rfl, rfl, hslice⟩ := slice_eq_ok h
  have heq : closing? (a ++ r) e (size a) =
      .ok ((Text.offset? (endTag e) r).map (size a + ·)) := by
    rw [closing?, hslice]
    rfl
  rw [heq]
  cases ho : Text.offset? (endTag e) r with
  | none =>
    refine .inl ⟨rfl, fun q hq hc => ?_⟩
    obtain ⟨k, rfl⟩ := Nat.exists_eq_add_of_le hq
    exact Text.offset?_eq_none ho k (Text.standsAt_append_iff.1 hc)
  | some k =>
    obtain ⟨hk, hfirst⟩ := Text.offset?_eq_some ho
    refine .inr ⟨size a + k, rfl, Nat.le_add_right _ _, Text.standsAt_append_iff.2 hk, ?_⟩
    intro q hq hlt hc
    obtain ⟨k', rfl⟩ := Nat.exists_eq_add_of_le hq
    exact hfirst k' (by omega) (Text.standsAt_append_iff.1 hc)

theorem opensAt_size_name_iff : OpensAt e (a ++ ('<' :: e ++ s)) (size a) ↔ endsName s = true := by
  have ha := Text.after?_append ('<' :: e) s
  rw [opensAt_size_iff, opensAt, ha]
  cases s with
  | nil => rfl
  | cons c s => rfl

theorem slice_behind (h : StandsAt ('<' :: e) body i) :
    ∃ s, slice body (i + size ('<' :: e)) body.size = .ok s ∧
      endsName s = decide (OpensAt e body i) := by
  obtain ⟨a, s, rfl, rfl⟩ := h
  refine ⟨s, slice_eq_ok_iff.2 ?_, ?_⟩
  · simpa [Nat.add_assoc] using Text.slice?_append (a ++ '<' :: e) s []
  · rw [Bool.eq_iff_iff, decide_eq_true_iff, opensAt_size_name_iff]

/-- Every start tag in front of an end tag is among the candidates. -/
theorem mem_candidates_iff (he : IsElementName e)
    (hc : ClosesAt e (a ++ (x ++ s)) (size (a ++ x))) :
    q ∈ (Text.offsets ('<' :: e) x).map (size a + ·) ↔
      size a ≤ q ∧ q < size (a ++ x) ∧ StandsAt ('<' :: e) (a ++ (x ++ s)) q := by
  have hm := notMem_name (a := '<') he rfl
  simp only [List.mem_map, Text.mem_offsets_iff hm]
  constructor
  · rintro ⟨k, hk, rfl⟩
    have hle := hk.le_size
    have hpos := Text.size_pos (List.cons_ne_nil '<' e)
    rw [Text.size_append]
    exact ⟨by omega, by omega, Text.standsAt_append_iff.2 (hk.append s)⟩
  · rintro ⟨hi, hj, hq⟩
    have hle := hq.le_of_lt hm hc.standsAt hj
    obtain ⟨k, rfl⟩ := Nat.exists_eq_add_of_le hi
    rw [Text.size_append] at hle
    exact ⟨k, (Text.standsAt_append_iff.1 hq).of_append (by omega), rfl⟩

theorem opening?_eq (he : IsElementName e) (hc : ClosesAt e (a ++ (x ++ s)) (size (a ++ x))) :
    opening? (a ++ (x ++ s)) e (size a) (size (a ++ x)) =
      .ok (((Text.offsets ('<' :: e) x).map (size a + ·)).find? fun q =>
        decide (OpensAt e (a ++ (x ++ s)) q)) := by
  have hslice : slice (a ++ (x ++ s)) (size a) (size (a ++ x)) = .ok x := by
    rw [slice_eq_ok_iff, ← List.append_assoc]
    exact Text.slice?_append a x s
  rw [opening?, hslice]
  refine findM?_eq_ok fun q hq => ?_
  obtain ⟨t, ht, hname⟩ := slice_behind ((mem_candidates_iff he hc).1 hq).2.2
  rw [ht, ← hname]
  rfl

theorem opening?_cases (he : IsElementName e) (hi : IsOffset body i) (hij : i ≤ j)
    (hc : ClosesAt e body j) :
    opening? body e i j = .ok none ∧ (∀ q, i ≤ q → q < j → ¬ OpensAt e body q) ∨
      ∃ k, opening? body e i j = .ok (some k) ∧ i ≤ k ∧ k < j ∧ OpensAt e body k ∧
        ∀ q, i ≤ q → q < k → ¬ OpensAt e body q := by
  obtain ⟨a, r, rfl, rfl⟩ := hi
  have hclose := hc
  obtain ⟨z, b, hz, rfl⟩ := hc
  obtain ⟨x, rfl, rfl⟩ := Text.exists_append_of_size_le hz hij
  have hmem {q : Nat} := mem_candidates_iff (q := q) he hclose
  rw [opening?_eq he hclose]
  cases hf : ((Text.offsets ('<' :: e) x).map (size a + ·)).find? fun q =>
      decide (OpensAt e (a ++ (x ++ (endTag e ++ b))) q) with
  | none =>
    refine .inl ⟨rfl, fun q hi hj ho => ?_⟩
    have hnone := List.find?_eq_none.1 hf q (hmem.2 ⟨hi, hj, ho.standsAt⟩)
    exact hnone (decide_eq_true ho)
  | some k =>
    have hsorted : ((Text.offsets ('<' :: e) x).map (size a + ·)).Pairwise (· < ·) :=
      (Text.pairwise_offsetsFrom _ 0 0 x).map _ fun _ _ h => Nat.add_lt_add_left h _
    obtain ⟨hk, ho, hfirst⟩ := Text.find?_eq_some_of_pairwise hsorted hf
    obtain ⟨hik, hkj, -⟩ := hmem.1 hk
    refine .inr ⟨k, rfl, hik, hkj, of_decide_eq_true ho, fun q hi hq hoq => ?_⟩
    have hqm := hmem.2 ⟨hi, hq.trans hkj, hoq.standsAt⟩
    exact of_decide_eq_false (hfirst q hqm hq) hoq

namespace EndSearch

variable {z z' : EndSearch}

/-- A turn in an open element makes no fault. It finds the end tag that is looked for, or that there
is none, or goes on with an open element and looks for the same end tag. -/
theorem turn_cases (he : IsElementName e) (hz : IsOffset body z.offset) (hd : z.depth ≠ 0) :
    z.turn body e = .ok .missing ∧ (∀ p, ¬ EndsAt e body z.depth z.offset p) ∨
      (∃ p, z.turn body e = .ok (.found p) ∧ IsLeast {p | EndsAt e body z.depth z.offset p} p) ∨
      ∃ z', z.turn body e = .ok (.next z') ∧ IsOffset body z'.offset ∧ z'.depth ≠ 0 ∧
        ∀ p, EndsAt e body z.depth z.offset p ↔ EndsAt e body z'.depth z'.offset p := by
  rcases closing?_cases hz (e := e) with ⟨hclosing, hnone⟩ | ⟨j, hclosing, hij, hc, hfirst⟩
  · refine .inl ⟨?_, fun p hp => hnone p hp.le hp.closes⟩
    rw [turn, hclosing]
    rfl
  rcases opening?_cases he hz hij hc with ⟨hopening, hnone⟩ | ⟨k, hopening, hik, hkj, ho, hbefore⟩
  · have hn : NoTags e body z.offset j := fun q hi hq => ⟨hnone q hi hq, hfirst q hi hq⟩
    have hturn : z.turn body e = z.leave e j := by
      simp [turn, hclosing, hopening]
    obtain ⟨depth, offset⟩ := z
    cases depth with
    | zero => exact absurd rfl hd
    | succ d =>
      by_cases hd1 : d = 0
      · subst hd1
        exact .inr (.inl ⟨j, hturn, isLeast_of_closes hij hn hc⟩)
      · refine .inr (.inr ⟨⟨d, j + size (endTag e)⟩, ?_, hc.isOffset_behind, hd1,
          fun p => endsAt_iff_of_closes he hij hn hc hd1⟩)
        rw [hturn, leave, if_neg hd, if_neg (by simpa using hd1)]
        rfl
  · have hn : NoTags e body z.offset k := fun q hi hq =>
      ⟨hbefore q hi hq, hfirst q hi (hq.trans hkj)⟩
    refine .inr (.inr ⟨z.enter e k, ?_, ho.standsAt.isOffset_behind, Nat.succ_ne_zero _,
      fun p => endsAt_iff_of_opens he hik hn ho⟩)
    simp [turn, hclosing, hopening, pure, Except.pure]

theorem run_eq (body e : Text) (z : EndSearch) : z.run body e = z.turn body e >>= fun t =>
    match t with
    | .next z' => z'.run body e
    | .found i => .ok (some i)
    | .missing => .ok none := by
  rw [run]
  split
  all_goals
    rename_i h
    rw [h]
    rfl

theorem run_cases (he : IsElementName e) (hz : IsOffset body z.offset) (hd : z.depth ≠ 0) :
    z.run body e = .ok none ∧ (∀ p, ¬ EndsAt e body z.depth z.offset p) ∨
      ∃ p, z.run body e = .ok (some p) ∧ IsLeast {p | EndsAt e body z.depth z.offset p} p := by
  induction hk : body.size - z.offset using Nat.strongRecOn generalizing z with
  | ind k ih =>
    rw [run_eq]
    rcases turn_cases he hz hd with ⟨hturn, hnone⟩ | ⟨p, hturn, hp⟩ | ⟨z', hturn, hz', hd', hiff⟩
    · rw [hturn]
      exact .inl ⟨rfl, hnone⟩
    · rw [hturn]
      exact .inr ⟨p, rfl, hp⟩
    · have hlt := turn_advances hturn
      simp only [hturn, hiff, ok_bind]
      exact ih _ (by omega) hz' hd' rfl

end EndSearch

end Turn

section Reading

variable {c : Char}

/-- A character is passed with the tag that starts at it, unless this is the one looked for. -/
theorem endsAt_iff_of_char {d' : Nat}
    (hd : d + (if OpensAt e (a ++ c :: s) (size a) then 1 else 0) =
      d' + (if ClosesAt e (a ++ c :: s) (size a) then 1 else 0))
    (h : ¬ EndsAt e (a ++ c :: s) d (size a) (size a)) :
    EndsAt e (a ++ c :: s) d (size a) p ↔ EndsAt e (a ++ c :: s) d' (size (a ++ [c])) p := by
  have hlt : size a < size (a ++ [c]) := by
    have := c.utf8Size_pos
    simp only [Text.size_append, Text.size_cons, Text.size_nil]
    omega
  have honly : ∀ q, size a ≤ q → q < size (a ++ [c]) → IsOffset (a ++ c :: s) q →
      q = size a := by
    intro q hi hj hq
    have := hq.le_or_le
    omega
  refine endsAt_iff_of_passed hlt.le ?_ fun q hq hend => ?_
  · rw [tally_eq_ite hlt fun q hi hj ho => honly q hi hj ho.standsAt.isOffset,
      tally_eq_ite hlt fun q hi hj hc => honly q hi hj hc.isOffset, hd]
  · obtain rfl := honly q hend.le hq hend.closes.isOffset
    exact h hend

theorem contentOf?_of_closes (h : Text.after? (endTag e) (c :: s) = some r) (d : Nat) :
    contentOf? e (d + 1) (c :: s) = (contentOf? e d s).map fun p => (c :: p.1, p.2) := by
  rw [contentOf?, h]
  exact if_neg (Nat.succ_ne_zero d)

theorem contentOf?_cons (he : IsElementName e) (a : Text) (c : Char) (s : Text) (d : Nat) :
    (∃ r, d = 0 ∧ c :: s = endTag e ++ r ∧ contentOf? e d (c :: s) = some ([], r)) ∨
      ∃ d', contentOf? e d (c :: s) = (contentOf? e d' s).map (fun p => (c :: p.1, p.2)) ∧
        ∀ p, EndsAt e (a ++ c :: s) (d + 1) (size a) p ↔
          EndsAt e (a ++ c :: s) (d' + 1) (size (a ++ [c])) p := by
  cases ha : Text.after? (endTag e) (c :: s) with
  | some r =>
    have hcloses : ClosesAt e (a ++ c :: s) (size a) := closesAt_size_iff_after?.2 ⟨r, ha⟩
    cases d with
    | zero => exact .inl ⟨r, rfl, Text.after?_eq_some_iff.1 ha, contentOf?_of_some ha⟩
    | succ d =>
      refine .inr ⟨d, contentOf?_of_closes ha d, fun p => endsAt_iff_of_char ?_ fun hend => ?_⟩
      · rw [if_neg (hcloses.not_opensAt he), if_pos hcloses]
      · have hbal := hend.balanced
        simp at hbal
  | none =>
    have hcloses : ¬ ClosesAt e (a ++ c :: s) (size a) := by
      rw [closesAt_size_iff_after?, ha]
      simp
    refine .inr ⟨_, contentOf?_of_none ha d, fun p => endsAt_iff_of_char ?_ fun hend =>
      hcloses hend.closes⟩
    rw [if_neg hcloses]
    by_cases ho : opensAt e (c :: s) = true
    · rw [if_pos ho, if_pos (opensAt_size_iff.2 ho)]
    · rw [if_neg ho, if_neg (mt opensAt_size_iff.1 ho)]

theorem contentOf?_cases (he : IsElementName e) (a s : Text) (d : Nat) :
    contentOf? e d s = none ∧ (∀ p, ¬ EndsAt e (a ++ s) (d + 1) (size a) p) ∨
      ∃ x y, contentOf? e d s = some (x, y) ∧ s = x ++ (endTag e ++ y) ∧
        IsLeast {p | EndsAt e (a ++ s) (d + 1) (size a) p} (size (a ++ x)) := by
  induction s generalizing a d with
  | nil =>
    refine .inl ⟨rfl, fun p hp => ?_⟩
    have hle := hp.closes.le_size
    have hap := hp.le
    have hpos : 0 < size (endTag e) := Text.size_pos (by simp [endTag])
    rw [List.append_nil] at hle
    omega
  | cons c s ih =>
    rcases contentOf?_cons he a c s d with ⟨r, rfl, hs, hcontent⟩ | ⟨d', hcontent, hiff⟩
    · refine .inr ⟨[], r, hcontent, hs, ?_⟩
      have hcloses : ClosesAt e (a ++ c :: s) (size a) := closesAt_size_iff.2 ⟨r, hs.symm⟩
      rw [List.append_nil]
      exact isLeast_of_closes le_rfl (fun q hi hq => absurd hi (by omega)) hcloses
    · have happ : (a ++ [c]) ++ s = a ++ c :: s := by simp
      have ih := ih (a ++ [c]) d'
      rw [happ] at ih
      simp only [hiff, hcontent]
      rcases ih with ⟨hnone, hp⟩ | ⟨x, y, hsome, rfl, hp⟩
      · rw [hnone]
        exact .inl ⟨rfl, hp⟩
      · rw [hsome]
        exact .inr ⟨c :: x, y, rfl, rfl, by simpa using hp⟩

end Reading

section Division

/-- The search in place and the reading of the text behind the offset find the same end tag, since
both find the first one that closes the element. -/
theorem endOffset?_eq (he : IsElementName e) (a s : Text) :
    endOffset? (a ++ s) e (size a) = .ok ((contentOf? e 0 s).map fun p => size (a ++ p.1)) := by
  rcases EndSearch.run_cases (z := ⟨1, size a⟩) he (Text.isOffset_append a s) Nat.one_ne_zero with
    ⟨hrun, hnone⟩ | ⟨p, hrun, hp⟩
  · rcases contentOf?_cases he a s 0 with ⟨hcontent, -⟩ | ⟨x, y, -, -, hx⟩
    · rw [endOffset?, hrun, hcontent]
      rfl
    · exact absurd hx.1 (hnone _)
  · rcases contentOf?_cases he a s 0 with ⟨-, hnone⟩ | ⟨x, y, hcontent, -, hx⟩
    · exact absurd hp.1 (hnone p)
    · rw [endOffset?, hrun, hcontent, hp.unique hx]
      rfl

theorem elementBehind?_cases {tag : StartTag} (ht : IsElementName tag.element)
    (hs : firstStartTag? s = some (tag, r)) (a : Text) :
    (elementBehind? (a ++ r) tag (size a) = .ok none ∧ elements s = []) ∨
      ∃ f x r', r = x ++ r' ∧ elementBehind? (a ++ r) tag (size a) = .ok (some (f, size (a ++ x))) ∧
        elements s = f :: elements r' := by
  cases hc : tag.selfClosed with
  | true =>
    refine .inr ⟨_, [], r, rfl, ?_, elements_of_selfClosed hs hc⟩
    simp only [elementBehind?, hc, if_true, List.append_nil]
    rfl
  | false =>
    have hend := endOffset?_eq ht a r
    rcases contentOf?_cases ht a r 0 with ⟨hcontent, -⟩ | ⟨x, y, hcontent, rfl, -⟩
    · refine .inl ⟨?_, elements_of_unclosed hs hc hcontent⟩
      rw [hcontent] at hend
      simp only [elementBehind?, hc, hend, ok_bind, Bool.false_eq_true, if_false]
      rfl
    · refine .inr ⟨_, x ++ endTag tag.element, y, by simp, ?_, elements_of_some hs hc hcontent⟩
      have hslice : slice (a ++ (x ++ (endTag tag.element ++ y))) (size a) (size (a ++ x)) =
          .ok x := by
        rw [slice_eq_ok_iff, ← List.append_assoc]
        exact Text.slice?_append a x _
      rw [hcontent] at hend
      simp only [elementBehind?, hc, hend, hslice, ok_bind, Option.map_some, Bool.false_eq_true,
        if_false]
      simp only [Text.size_append, Nat.add_assoc]
      rfl

theorem elementFrom?_cases (a s : Text) :
    (elementFrom? (a ++ s) (size a) = .ok none ∧ elements s = []) ∨
      ∃ f x r, s = x ++ r ∧ elementFrom? (a ++ s) (size a) = .ok (some (f, size (a ++ x))) ∧
        elements s = f :: elements r := by
  have hslice : slice (a ++ s) (size a) (a ++ s).size = .ok s := by
    rw [slice_eq_ok_iff]
    simpa using Text.slice?_append a s []
  cases hs : firstStartTag? s with
  | none =>
    refine .inl ⟨?_, elements_of_none hs⟩
    simp only [elementFrom?, hslice, hs, ok_bind]
    rfl
  | some p =>
    obtain ⟨tag, r⟩ := p
    obtain ⟨y, rfl⟩ := firstStartTag?_suffix hs
    have hfrom : elementFrom? (a ++ (y ++ r)) (size a) =
        elementBehind? (a ++ (y ++ r)) tag (size (a ++ y)) := by
      have hsize : size a + (size (y ++ r) - size r) = size (a ++ y) := by
        simp
      simp only [elementFrom?, hslice, hs, hsize, ok_bind]
    rw [hfrom, ← List.append_assoc]
    rcases elementBehind?_cases (isElementName_of_firstStartTag? hs) hs (a ++ y) with
      h | ⟨f, x, r', rfl, hbehind, helements⟩
    · exact .inl h
    · refine .inr ⟨f, y ++ x, r', by simp, ?_, helements⟩
      rw [hbehind, List.append_assoc]

theorem elementsFrom_eq_bind (body : Text) (i : Nat) :
    elementsFrom body i = elementFrom? body i >>= fun o =>
      match o with
      | none => .ok []
      | some (f, j) => (elementsFrom body j).map (f :: ·) := by
  rw [elementsFrom]
  split
  all_goals
    rename_i h
    rw [h]
    rfl

/-- The division in place makes no fault and gives the elements of the text behind the offset. -/
theorem elementsFrom_eq (a s : Text) : elementsFrom (a ++ s) (size a) = .ok (elements s) := by
  induction hk : size s using Nat.strongRecOn generalizing a s with
  | ind k ih =>
    rw [elementsFrom_eq_bind]
    rcases elementFrom?_cases a s with ⟨hfrom, helements⟩ | ⟨f, x, r, rfl, hfrom, helements⟩
    · rw [hfrom, helements]
      rfl
    · have hlt := (elementFrom?_advances hfrom).1
      have hrest := ih (size r) (by simp only [Text.size_append] at hlt hk; omega) (a ++ x) r rfl
      rw [List.append_assoc] at hrest
      simp only [hfrom, helements, ok_bind, hrest]
      rfl

end Division

theorem endOffset?_cases (he : IsElementName e) (hi : IsOffset body i) :
    endOffset? body e i = .ok none ∧ (∀ p, ¬ BalancedEnd e body i p) ∨
      ∃ p, endOffset? body e i = .ok (some p) ∧ IsLeast {p | BalancedEnd e body i p} p := by
  have hrun := EndSearch.run_cases (z := ⟨1, i⟩) he hi Nat.one_ne_zero
  simp only [endsAt_one_iff] at hrun
  exact hrun

/-- From every offset behind which an element has begun, the search in place ends without a fault:
every slice exists and no end tag is met while no element is open. It finds the first balanced end
tag, as the reading of the text behind the offset does, and none exactly when there is none. Each of
its turns that goes on moves towards the end of the body. So does each element of the division in
place, which gives the elements of any body. -/
theorem endOffset?_first_balanced (body : Text) :
    (∀ (e a s : Text), IsElementName e → body = a ++ s →
      endOffset? body e (size a) = .ok ((contentOf? e 0 s).map fun p => size (a ++ p.1)) ∧
        (∀ p, endOffset? body e (size a) = .ok (some p) ↔
          IsLeast {p | BalancedEnd e body (size a) p} p) ∧
        (endOffset? body e (size a) = .ok none ↔ ∀ p, ¬ BalancedEnd e body (size a) p)) ∧
      (∀ (e : Text) (z z' : EndSearch), z.turn body e = .ok (.next z') →
        z.offset < z'.offset ∧ z.offset < body.size) ∧
      (∀ i, IsOffset body i → elementFrom? body i = .ok none ∨
        ∃ f j, elementFrom? body i = .ok (some (f, j)) ∧ i < j ∧ IsOffset body j) ∧
      elementsFrom body 0 = .ok (elements body) := by
  refine ⟨?_, fun e z z' h => EndSearch.turn_advances h, ?_, elementsFrom_eq [] body⟩
  · rintro e a s he rfl
    refine ⟨endOffset?_eq he a s, ?_⟩
    rcases endOffset?_cases he (Text.isOffset_append a s) with ⟨hend, hnone⟩ | ⟨p, hend, hp⟩
    · rw [hend]
      exact ⟨fun p => ⟨nofun, fun hp => absurd hp.1 (hnone p)⟩, ⟨fun _ => hnone, fun _ => rfl⟩⟩
    · rw [hend]
      refine ⟨fun q => ⟨?_, fun hq => by rw [hp.unique hq]⟩, nofun, fun hnone => ?_⟩
      · rintro ⟨⟩
        exact hp
      · exact absurd hp.1 (hnone p)
  · rintro i ⟨a, s, rfl, rfl⟩
    rcases elementFrom?_cases a s with ⟨hfrom, -⟩ | ⟨f, x, r, rfl, hfrom, -⟩
    · exact .inl hfrom
    · refine .inr ⟨f, _, hfrom, (elementFrom?_advances hfrom).1, ?_⟩
      rw [← List.append_assoc]
      exact Text.isOffset_append (a ++ x) r

/-- A nested element with attributes, one of a longer name and one that closes itself. The letter in
front of them takes two bytes. -/
theorem endOffset?_first_balanced_of_nested :
    let a : Text := "<b>é".toList
    let s : Text := "<b\tk=\"\">x</b><bc></bc><b/></b>z</b>".toList
    IsElementName "b" ∧ endOffset? (a ++ s) "b" (size a) = .ok (some 31) ∧
      IsLeast {p | BalancedEnd "b" (a ++ s) (size a) p} 31 ∧
      EndSearch.turn (a ++ s) "b" ⟨1, size a⟩ = .ok (.next ⟨2, 7⟩) ∧ size a < 7 ∧
      IsOffset (a ++ s) 3 ∧
      (∃ f j, elementFrom? (a ++ s) 3 = .ok (some (f, j)) ∧ 3 < j ∧ IsOffset (a ++ s) j) ∧
      elementsFrom (a ++ s) 0 = .ok [⟨"b", none, "éx"⟩] := by
  intro a s
  obtain ⟨hfirst, hadvances, hdivision, helements⟩ := endOffset?_first_balanced (a ++ s)
  have he : IsElementName "b" := by decide
  obtain ⟨hend, hleast, -⟩ := hfirst "b" a s he rfl
  have hcontent : ((contentOf? "b" 0 s).map fun p => size (a ++ p.1)) = some 31 := by
    decide +kernel
  rw [hcontent] at hend
  have hturn : EndSearch.turn (a ++ s) "b" ⟨1, size a⟩ = .ok (.next ⟨2, 7⟩) := by
    decide +kernel
  have hoffset : IsOffset (a ++ s) 3 := ⟨"<b>".toList, 'é' :: s, by decide +kernel, by decide⟩
  have hfrom : elementFrom? (a ++ s) 3 ≠ .ok none := by
    decide +kernel
  have hbody : elements (a ++ s) = [⟨"b", none, "éx"⟩] := by
    decide +kernel
  refine ⟨he, hend, (hleast 31).1 hend, hturn, (hadvances "b" _ _ hturn).1, hoffset,
    (hdivision 3 hoffset).resolve_left hfrom, ?_⟩
  rw [helements, hbody]

end ApiBook.Xml
