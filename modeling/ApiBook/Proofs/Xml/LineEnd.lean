import ApiBook.Proofs.Xml.Marked
import ApiBook.Proofs.Xml.Spelling
import Mathlib.Algebra.GroupWithZero.Nat

/-! # Line ends of documentation files

The texts that records are made of keep the line ends of the file apart from everything else, so
a carriage return in front of a line feed changes no record if it goes from the text in which it
stands. Otherwise the records have the more carriage returns.
-/

namespace ApiBook.Xml

open Text (SameLines splits)

section Pieces

variable {s t : Text}

theorem splits_lineEnd (hs : '\r' ∉ s) (t : Text) : splits '\r' (s ++ '\r' :: '\n' :: t) =
    (s, '\n' :: t) :: (splits '\r' t).map fun p => (s ++ '\r' :: '\n' :: p.1, p.2) := by
  have hn : splits '\r' ('\n' :: t) = (splits '\r' t).map fun p => ('\n' :: p.1, p.2) := rfl
  rw [Text.splits_append_cons hs, hn, List.map_map]
  rfl

/-- Decoding keeps the line ends of the source apart from the characters that references give. -/
theorem exists_marked (h : SameLines s t) : ∃ m : Marked, m.lf = decode s ∧ m.crlf = decode t ∧
    (splits none m).map (fun p => (Marked.crlf p.1, '\n' :: Marked.crlf p.2)) =
      (splits '\r' t).map fun p => (decode p.1, decode p.2) := by
  induction hk : t.length using Nat.strongRecOn generalizing s t with
  | ind k ih =>
    rcases h.eq_or_exists with ⟨rfl, hs⟩ | ⟨x, s', t', h', hx, rfl, rfl⟩
    · refine ⟨(decode s).map some, Marked.lf_map_some _, Marked.crlf_map_some _, ?_⟩
      rw [Text.splits_of_notMem (by simp), Text.splits_of_notMem hs]
      rfl
    · obtain ⟨m, hl, hc, hm⟩ := ih t'.length (by simp [← hk]; omega) h' rfl
      have hsplit (a : Text) : decode (x ++ '\r' :: '\n' :: a) =
          decode x ++ '\r' :: '\n' :: decode a := by
        rw [decode_append_cons (.inl rfl), decode_cons (.inr rfl)]
      refine ⟨(decode x).map some ++ none :: m, ?_, ?_, ?_⟩
      · rw [Marked.lf_append, Marked.lf_map_some, decode_append_cons (.inr rfl), ← hl]
        rfl
      · rw [Marked.crlf_append, Marked.crlf_map_some, hsplit, ← hc]
        rfl
      · have hnone : none ∉ (decode x).map some := by simp
        rw [Text.splits_append_cons hnone, splits_lineEnd hx, List.map_cons, List.map_cons,
          Marked.crlf_map_some, decode_cons (.inr rfl), hc, List.map_map, List.map_map]
        have hm := congrArg (List.map fun p => (decode x ++ '\r' :: '\n' :: p.1, p.2)) hm
        rw [List.map_map, List.map_map] at hm
        refine congrArg (_ :: ·) (Eq.trans (List.map_congr_left fun p _ => ?_)
          (hm.trans (List.map_congr_left fun p _ => ?_)))
        · simp [Function.comp]
        · simp only [Function.comp, hsplit]

/-- Every line end of the text inside an element goes when the text is made plain. -/
def LineEndsVanish (content : Text) : Prop :=
  ∀ p ∈ splits '\r' (withoutTags content), Vanishes (decode p.1) (decode p.2)

instance (content : Text) : Decidable (LineEndsVanish content) :=
  inferInstanceAs (Decidable (∀ p ∈ splits '\r' (withoutTags content), _))

theorem agreeIff_plainText (h : SameLines s t) :
    AgreeIff (LineEndsVanish t) (List.count '\r') (plainText s) (plainText t) := by
  obtain ⟨m, hl, hc, hm⟩ := exists_marked (sameLines_withoutTags h)
  have hv : LineEndsVanish t ↔ m.LineEndsVanish := by
    have hv := List.forall_mem_map (l := splits none m) (P := fun q => Vanishes q.1 q.2)
      (f := fun p => (Marked.crlf p.1, '\n' :: Marked.crlf p.2))
    rw [hm, List.forall_mem_map] at hv
    exact hv
  rw [plainText, plainText, flatten_eq, flatten_eq, ← hl, ← hc]
  exact (Marked.agreeIff_normalize m).congr hv

theorem agreeIff_decode (h : SameLines s t) :
    AgreeIff ('\r' ∉ t) (List.count '\r') (decode s) (decode t) := by
  by_cases ht : '\r' ∈ t
  · obtain ⟨m, hl, hc, hm⟩ := exists_marked h
    obtain ⟨a, b, hab⟩ := List.append_of_mem ht
    have hmem : (decode a, decode b) ∈
        (splits '\r' t).map fun p => (decode p.1, decode p.2) :=
      List.mem_map_of_mem (Text.mem_splits_iff (p := (a, b)).2 hab)
    rw [← hm] at hmem
    obtain ⟨p, hp, -⟩ := List.mem_map.1 hmem
    have hnone : none ∈ m :=
      Text.mem_splits_iff.1 hp ▸ List.mem_append_right _ List.mem_cons_self
    have hpos := List.count_pos_iff.2 hnone
    refine .inr ⟨not_not_intro ht, ?_⟩
    rw [← hl, ← hc, Marked.count_crlf]
    omega
  · rw [h.eq_of_notMem ht]
    exact .refl ht _

end Pieces

section Ids

@[simp] theorem count_consHead (c : Char) (l : List Text) :
    ((Text.consHead c l).map (List.count '\r')).sum =
      [c].count '\r' + (l.map (List.count '\r')).sum := by
  cases l with
  | nil => simp [Text.consHead]
  | cons t l =>
    rw [Text.consHead, List.map_cons, List.sum_cons, List.map_cons, List.sum_cons,
      ← List.singleton_append, List.count_append, Nat.add_assoc]

@[simp] theorem count_commaPieces (depth : Nat) (s : Text) :
    ((Record.commaPieces depth s).map (List.count '\r')).sum = s.count '\r' := by
  induction s generalizing depth with
  | nil => rfl
  | cons c s ih =>
    rw [Record.commaPieces]
    split
    · rename_i h
      simp [ih, h.1]
    · simp [ih, List.count_cons, Nat.add_comm]

@[simp] theorem count_splitSignature (s : Text) :
    ((Record.splitSignature s).map (List.count '\r')).sum = s.count '\r' := by
  rw [← count_commaPieces 0, Record.splitSignature]
  split
  · rename_i h
    obtain ⟨l, hl⟩ := List.getLast?_eq_some_iff.1 h
    rw [hl]
    simp
  · rfl

theorem count_dropEndWhile {p : Char → Bool} (hp : p '\r' = false) (s : Text) :
    (Text.dropEndWhile p s).count '\r' = s.count '\r' := by
  obtain ⟨e, hs, he⟩ := Text.dropEndWhile_append p s
  have hr : '\r' ∉ e := fun h => by
    rw [he _ h] at hp
    cases hp
  conv_rhs => rw [hs, List.count_append, List.count_eq_zero_of_not_mem hr, Nat.add_zero]

@[simp] theorem count_splitKind (id : Text) :
    (Record.splitKind id).2.count '\r' = id.count '\r' := by
  unfold Record.splitKind
  split
  · rename_i c rest
    split
    · rename_i kind h
      have hc : c ≠ '\r' := by
        rintro rfl
        cases h
      rw [List.count_cons_of_ne hc]
      simp
    · rfl
  · rfl

theorem count_ofId (id : Text) : (Record.ofId id).target.count '\r' +
    ((Record.ofId id).signature.map (List.count '\r')).sum = id.count '\r' := by
  rw [← count_splitKind id, Record.ofId]
  dsimp only
  split
  · rename_i target args h
    rw [(Text.cut?_eq_some h).1, count_splitSignature, count_dropEndWhile rfl, List.count_append,
      List.count_cons_of_ne (by decide)]
  · rfl

end Ids

section Members

variable {s t : Text}

def nameReturns (name : Option Text) : Nat := name.elim 0 (List.count '\r')

def fragmentReturns (f : Fragment) : Nat := nameReturns f.name + f.text.count '\r'

/-- The carriage returns in the target and the signature of a record. -/
def headReturns (r : Record) : Nat := r.target.count '\r' + (r.signature.map (List.count '\r')).sum

def recordReturns (r : Record) : Nat := headReturns r + (r.fragments.map fragmentReturns).sum

def SourceElement.LineEndsVanish (e : SourceElement) : Prop :=
  (∀ v ∈ e.name, '\r' ∉ v) ∧ Xml.LineEndsVanish e.content

instance (e : SourceElement) : Decidable e.LineEndsVanish := inferInstanceAs (Decidable (_ ∧ _))

def SourceMember.LineEndsVanish (m : SourceMember) : Prop :=
  '\r' ∉ m.id ∧ ∀ e ∈ m.elements, e.LineEndsVanish

instance (m : SourceMember) : Decidable m.LineEndsVanish := inferInstanceAs (Decidable (_ ∧ _))

theorem agreeIff_name {x y : Option Text} (h : Option.Rel SameLines x y) :
    AgreeIff (∀ v ∈ y, '\r' ∉ v) nameReturns (x.map decode) (y.map decode) := by
  cases h with
  | none => exact .refl (fun _ h => nomatch h) _
  | some h =>
    refine ((agreeIff_decode h).map (m := nameReturns) (f := some) fun _ => rfl).congr ?_
    simp

theorem agreeIff_fragment {x y : SourceElement} (h : SameElement x y) :
    AgreeIff y.LineEndsVanish fragmentReturns x.fragment y.fragment := by
  rw [SourceElement.fragment, SourceElement.fragment, h.element_eq]
  exact .map₂ (f := fun n t => Fragment.mk y.element n t) (fun _ _ => rfl) (agreeIff_name h.name)
    (agreeIff_plainText h.content)

theorem agreeIff_record {x y : SourceMember} (h : SameMember x y) :
    AgreeIff y.LineEndsVanish recordReturns x.record y.record := by
  have hid := (agreeIff_decode h.id).map (m := headReturns) count_ofId
  have helements := AgreeIff.map_forall₂ (fun _ _ h => agreeIff_fragment h) h.elements
  exact .map₂ (k := recordReturns) (f := fun r fs => { r with fragments := fs }) (fun _ _ => rfl)
    hid helements

theorem agreeIff_members (h : SameLines s t) :
    AgreeIff (∀ m ∈ sourceMembers t, m.LineEndsVanish) (fun rs => (rs.map recordReturns).sum)
      (members s) (members t) := by
  rw [members_eq_map, members_eq_map]
  exact .map_forall₂ (fun _ _ h => agreeIff_record h) (sourceMembers_forall₂ h)

/-- Sorting moves carriage returns and loses none. -/
theorem agreeIff_records (h : SameLines s t) :
    AgreeIff (∀ m ∈ sourceMembers t, m.LineEndsVanish) (fun rs => (rs.map recordReturns).sum)
      (records s) (records t) :=
  (agreeIff_members h).map (f := fun rs => rs.mergeSort fun a b => Text.le a.target b.target)
    fun rs => ((List.mergeSort_perm rs _).map _).sum_nat

end Members

/-- A file without carriage returns gives the same records with a carriage return in front of every
line feed exactly if no line end stands in an id or in a name, and each line end in the text of an
element goes when that text is made normal: it stands outside the words, or in white space with a
paragraph break. -/
theorem records_crlf_iff {s : Text} (h : '\r' ∉ s) :
    records (Text.crlf s) = records s ↔
      ∀ m ∈ sourceMembers (Text.crlf s), m.LineEndsVanish :=
  (agreeIff_records (Text.sameLines_crlf h)).iff

/-- Line ends between elements, inside tags, at both ends of a text and behind a paragraph tag. -/
theorem records_crlf_of_layout :
    let s : Text := "<member\nname=\"M:N.A.f(B)\">\n<summary>\nOf <see\ncref=\"T:N.B\"/>.<para/>" ++
      "\nOr not.\n</summary>\n<param name=\"x\"/>\n</member>\n"
    '\r' ∉ s ∧ records (Text.crlf s) = records s ∧ records s =
      [{ kind := .method, target := "N.A.f", signature := ["B"], fragments :=
        [⟨"summary", none, "Of B.\n\nOr not."⟩, ⟨"param", some "x".toList, []⟩] }] := by
  intro s
  have h : '\r' ∉ s := by decide +kernel
  exact ⟨h, (records_crlf_iff h).2 (by decide +kernel), by decide +kernel⟩

/-- A line end between two words leaves its carriage return. -/
theorem records_crlf_of_two_lines :
    let s : Text := "<member name=\"T:N.A\"><summary>a\nb</summary></member>"
    '\r' ∉ s ∧
      records s = [{ kind := .type, target := "N.A", fragments := [⟨"summary", none, "a b"⟩] }] ∧
      records (Text.crlf s) =
        [{ kind := .type, target := "N.A", fragments := [⟨"summary", none, "a\r b"⟩] }] := by
  decide +kernel

end ApiBook.Xml
