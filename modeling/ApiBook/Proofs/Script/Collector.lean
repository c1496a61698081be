import ApiBook.Proofs.Script.Names
import ApiBook.Script.Collector

/-! # What collected notes come to

The document of some notes has the class of the first note that names one, and the members in the
order in which their names first occur, each as the last note of its name tells it. A collector
always finds the position of a member, and arrives at that document.
-/

namespace ApiBook.Script

def Note.classDoc? : Note → Option ClassDoc
  | .declared ⟨name, text, .wholeClass⟩ => some ⟨name, text⟩
  | _ => none

def Note.member? : Note → Option Member
  | .declared ⟨name, text, .member typeName detail⟩ =>
    some { name, summary := text, typeName, origin := .client, detail }
  | _ => none

def Note.isDeclared : Note → Bool
  | .declared _ => true
  | _ => false

/-- What a list of notes comes to. -/
structure Document.Collects (as : List Note) (s : Document) : Prop where
  /-- The first class. -/
  classDoc_eq : s.classDoc = as.findSome? Note.classDoc?
  /-- The names in the order of their first occurrences. -/
  names_eq : s.members.map (·.name) = ((as.filterMap Note.member?).map (·.name)).eraseDups
  /-- Each name once. -/
  nodup : (s.members.map (·.name)).Nodup
  /-- Each member is the last one of its name. -/
  last : ∀ m ∈ s.members, (as.filterMap Note.member?).reverse.find? (·.name = m.name) = some m
  origin_eq : ∀ m ∈ s.members, m.origin = .client

namespace Document

variable {s : Document} {a : Note} {as : List Note} {m x : Member} {ms : List Member} {i : Nat}

theorem add_eq (s : Document) (a : Note) : s.add a =
    { classDoc := s.classDoc.or a.classDoc?
      members := a.member?.elim s.members (put · s.members) } := by
  match a with
  | .summary _ => simp [add, Note.classDoc?, Note.member?]
  | .unrecognized _ => simp [add, Note.classDoc?, Note.member?]
  | .declared ⟨_, _, .wholeClass⟩ => simp [add, Note.classDoc?, Note.member?]
  | .declared ⟨_, _, .member _ _⟩ => simp [add, Note.classDoc?, Note.member?]

@[simp] theorem addAll_concat (s : Document) (as : List Note) (a : Note) :
    s.addAll (as ++ [a]) = (s.addAll as).add a := by
  rw [addAll, addAll, List.foldl_append, List.foldl_cons, List.foldl_nil]

theorem origin_eq_of_member? (h : a.member? = some m) : m.origin = .client := by
  unfold Note.member? at h
  split at h
  · cases h
    rfl
  · cases h

theorem mem_put (h : (ms.map (·.name)).Nodup) :
    x ∈ put m ms ↔ x = m ∨ x ∈ ms ∧ x.name ≠ m.name := by
  induction ms with
  | nil => simp [put]
  | cons y ms ih =>
    obtain ⟨hy, hms⟩ := List.nodup_cons.1 h
    rw [put]
    split
    · rename_i hname
      have hne : ∀ z ∈ ms, z.name ≠ m.name := by
        intro z hz hzm
        exact hy (List.mem_map.2 ⟨z, hz, hzm.trans hname.symm⟩)
      constructor
      · intro hx
        rcases List.mem_cons.1 hx with rfl | hx
        · exact .inl rfl
        · exact .inr ⟨List.mem_cons_of_mem _ hx, hne x hx⟩
      · rintro (rfl | ⟨hx, hxm⟩)
        · exact List.mem_cons_self
        · rcases List.mem_cons.1 hx with rfl | hx
          · exact absurd hname hxm
          · exact List.mem_cons_of_mem _ hx
    · rename_i hname
      rw [List.mem_cons, ih hms, List.mem_cons]
      constructor
      · rintro (rfl | rfl | ⟨hx, hxm⟩)
        · exact .inr ⟨.inl rfl, hname⟩
        · exact .inl rfl
        · exact .inr ⟨.inr hx, hxm⟩
      · rintro (rfl | ⟨rfl | hx, hxm⟩)
        · exact .inr (.inl rfl)
        · exact .inl rfl
        · exact .inr (.inr ⟨hx, hxm⟩)

theorem Collects.add (h : Collects as s) (a : Note) : Collects (as ++ [a]) (s.add a) := by
  rw [add_eq]
  have hclass : s.classDoc.or a.classDoc? = (as ++ [a]).findSome? Note.classDoc? := by
    rw [List.findSome?_append, ← h.classDoc_eq]
    cases ha : a.classDoc? <;> simp [ha]
  cases ha : a.member? with
  | none =>
    have hms : (as ++ [a]).filterMap Note.member? = as.filterMap Note.member? := by
      rw [List.filterMap_append, List.filterMap_cons_none ha, List.filterMap_nil, List.append_nil]
    exact ⟨hclass, hms ▸ h.names_eq, h.nodup, hms ▸ h.last, h.origin_eq⟩
  | some m =>
    have hms : (as ++ [a]).filterMap Note.member? = as.filterMap Note.member? ++ [m] := by
      rw [List.filterMap_append, List.filterMap_cons_some ha, List.filterMap_nil]
    refine ⟨hclass, ?_, put_nodup h.nodup, ?_, ?_⟩
    · rw [hms, List.map_append, List.map_singleton, eraseDups_concat, ← h.names_eq]
      exact put_names m s.members
    · intro x hx
      rw [hms, List.reverse_concat]
      rcases (mem_put h.nodup).1 hx with rfl | ⟨hx, hne⟩
      · rw [List.find?_cons_of_pos (by simp)]
      · rw [List.find?_cons_of_neg (by simpa using Ne.symm hne)]
        exact h.last x hx
    · intro x hx
      rcases (mem_put h.nodup).1 hx with rfl | ⟨hx, -⟩
      · exact origin_eq_of_member? ha
      · exact h.origin_eq x hx

theorem collects_addAll (as : List Note) : Collects as (({} : Document).addAll as) := by
  induction as using List.reverseRecOn with
  | nil => exact ⟨rfl, rfl, List.nodup_nil, by simp [addAll], by simp [addAll]⟩
  | append_singleton as a ih =>
    rw [addAll_concat]
    exact ih.add a

/-- When one position alone holds the name of a member, putting the member there is putting it
among the members. -/
theorem put_eq_set (h : (ms[i]?).map (·.name) = some m.name)
    (hu : ∀ j, (ms[j]?).map (·.name) = some m.name → j = i) : put m ms = ms.set i m := by
  induction ms generalizing i with
  | nil => simp at h
  | cons y ms ih =>
    rw [put]
    split
    · rename_i hname
      obtain rfl := hu 0 (by simpa using hname)
      rfl
    · rename_i hname
      cases i with
      | zero => exact absurd (by simpa using h) hname
      | succ i =>
        rw [List.set_cons_succ, ih (by simpa using h)]
        intro j hj
        exact Nat.succ.inj (hu (j + 1) (by simpa using hj))

end Document

namespace Collector

variable {c : Collector} {a : Note} {as : List Note} {m : Member} {ss : List Supply}

/-- The index maps the names of the members, and no other names, to their positions. -/
def Indexed (c : Collector) : Prop :=
  ∀ n i, c.index.lookup n = some i ↔ (c.members[i]?).map (·.name) = some n

theorem indexed_empty : ({} : Collector).Indexed := by
  simp [Indexed]

theorem Indexed.append (h : c.Indexed) (hm : c.index.lookup m.name = none) :
    Indexed { c with
      members := c.members ++ [m]
      index := (m.name, c.members.length) :: c.index } := by
  intro n i
  have hold : i < c.members.length →
      (((c.members ++ [m])[i]?).map (·.name) = some n ↔ c.index.lookup n = some i) := by
    intro hi
    rw [List.getElem?_append_left hi, h n i]
  have hbeyond : ¬ i < c.members.length → c.index.lookup n ≠ some i := by
    intro hi hn
    obtain ⟨x, hx, -⟩ := Option.map_eq_some_iff.1 ((h n i).1 hn)
    exact hi (List.getElem?_eq_some_iff.1 hx).1
  change ((m.name, c.members.length) :: c.index).lookup n = some i ↔ _
  by_cases hn : n = m.name
  · subst hn
    rw [List.lookup_cons_self, Option.some.injEq]
    constructor
    · rintro rfl
      simp
    · intro hi
      by_cases hlt : i < c.members.length
      · rw [hold hlt, hm] at hi
        cases hi
      · obtain ⟨x, hx, -⟩ := Option.map_eq_some_iff.1 hi
        have hle : i < (c.members ++ [m]).length := (List.getElem?_eq_some_iff.1 hx).1
        rw [List.length_append, List.length_singleton] at hle
        omega
  · have hne : (n == m.name) = false := by simpa using hn
    rw [List.lookup_cons, hne]
    by_cases hlt : i < c.members.length
    · exact (hold hlt).symm
    · refine iff_of_false (hbeyond hlt) fun hi => ?_
      rw [List.getElem?_append_right (Nat.le_of_not_lt hlt)] at hi
      obtain ⟨x, hx, hxn⟩ := Option.map_eq_some_iff.1 hi
      exact hn (hxn.symm.trans (congrArg _ (List.mem_singleton.1 (List.mem_of_getElem? hx))))

theorem Indexed.insert? (h : c.Indexed) (m : Member) : ∃ c', c.insert? m = some c' ∧
    c'.Indexed ∧ c'.build = { c.build with members := Document.put m c.members } := by
  unfold Collector.insert?
  cases hi : c.index.lookup m.name with
  | some i =>
    have hpos := (h m.name i).1 hi
    obtain ⟨x, hx, hxm⟩ := Option.map_eq_some_iff.1 hpos
    have hlt : i < c.members.length := (List.getElem?_eq_some_iff.1 hx).1
    refine ⟨_, if_pos hlt, fun n j => ?_, ?_⟩
    · rw [h n j]
      by_cases hj : i = j
      · subst hj
        rw [hx, List.getElem?_set_self hlt, Option.map_some, Option.map_some, hxm]
      · simp [hj]
    · rw [Document.put_eq_set hpos]
      · rfl
      · intro j hj
        have he : some j = some i := ((h m.name j).2 hj).symm.trans hi
        exact Option.some.inj he
  | none =>
    have hnew : m.name ∉ c.members.map (·.name) := by
      intro hm
      obtain ⟨j, hj⟩ := List.mem_iff_getElem?.1 hm
      rw [List.getElem?_map, ← h m.name j, hi] at hj
      cases hj
    refine ⟨_, rfl, h.append hi, ?_⟩
    rw [Document.put_eq_append hnew]
    rfl

theorem Indexed.add? (h : c.Indexed) (a : Note) : ∃ c', c.add? a = some c' ∧
    c'.Indexed ∧ c'.build = c.build.add a := by
  match a with
  | .summary _ => exact ⟨c, rfl, h, rfl⟩
  | .unrecognized _ => exact ⟨c, rfl, h, rfl⟩
  | .declared ⟨_, _, .wholeClass⟩ => exact ⟨_, rfl, h, rfl⟩
  | .declared ⟨_, _, .member _ _⟩ => exact h.insert? _

@[simp] theorem addAll?_cons (c : Collector) (a : Note) (as : List Note) :
    c.addAll? (a :: as) = (c.add? a).bind (·.addAll? as) := List.foldlM_cons

@[simp] theorem addAll?_append (c : Collector) (as bs : List Note) :
    c.addAll? (as ++ bs) = (c.addAll? as).bind (·.addAll? bs) := List.foldlM_append

/-- A collector arrives at the document of the notes. -/
theorem Indexed.addAll? (h : c.Indexed) (as : List Note) : ∃ c', c.addAll? as = some c' ∧
    c'.Indexed ∧ c'.build = c.build.addAll as := by
  induction as generalizing c with
  | nil => exact ⟨c, rfl, h, rfl⟩
  | cons a as ih =>
    obtain ⟨c', hc', h', hb⟩ := h.add? a
    obtain ⟨c'', hc'', h'', hb'⟩ := ih h'
    refine ⟨c'', ?_, h'', ?_⟩
    · rw [addAll?_cons, hc']
      exact hc''
    · rw [hb', hb]
      rfl

/-- How the notes are grouped does not matter. -/
theorem supplyAll?_eq (c : Collector) (ss : List Supply) :
    c.supplyAll? ss = c.addAll? (ss.flatMap Supply.notes) := by
  induction ss generalizing c with
  | nil => rfl
  | cons s ss ih =>
    rw [List.flatMap_cons, addAll?_append]
    change (c.addAll? s.notes).bind (·.supplyAll? ss) = _
    exact Option.bind_congr fun c' _ => ih c'

theorem add?_of_not_isDeclared (h : a.isDeclared = false) : c.add? a = some c := by
  match a, h with
  | .summary _, _ => rfl
  | .unrecognized _, _ => rfl

@[simp] theorem addAll?_filter_isDeclared (c : Collector) (as : List Note) :
    c.addAll? (as.filter Note.isDeclared) = c.addAll? as := by
  induction as generalizing c with
  | nil => rfl
  | cons a as ih =>
    cases ha : a.isDeclared with
    | false =>
      simp [ha, add?_of_not_isDeclared ha, ih]
    | true =>
      simp [ha, ih]

theorem supplyAll?_blocks (lines : List Text) :
    ∃ c, ({} : Collector).supplyAll? ((blocks lines).map fun b => .block b.lines) = some c ∧
      c.build = Document.ofLines lines := by
  obtain ⟨c, hc, -, hb⟩ := indexed_empty.addAll?
    (((blocks lines).map fun b => Supply.block b.lines).flatMap Supply.notes)
  refine ⟨c, (supplyAll?_eq _ _).trans hc, ?_⟩
  rw [hb, List.flatMap_map, Document.addAll, List.foldl_flatMap]
  rfl

/-- Whatever notes and comment blocks a collector is handed, it takes them all, and comes to the
first class and, in the order in which the names first occur, the last member of each name. On the
way, also between the notes of a block, its index maps exactly the names of its members to their
positions. Notes that declare nothing make no difference. -/
theorem collect_supplies (ss : List Supply) :
    ∃ c, ({} : Collector).supplyAll? ss = some c ∧
      Document.Collects (ss.flatMap Supply.notes) c.build ∧
      c.build = ({} : Document).addAll (ss.flatMap Supply.notes) ∧
      (∀ k, ∃ c', ({} : Collector).addAll? ((ss.flatMap Supply.notes).take k) = some c' ∧
        c'.Indexed) ∧
      ({} : Collector).addAll? ((ss.flatMap Supply.notes).filter Note.isDeclared) = some c := by
  obtain ⟨c, hc, -, hb⟩ := indexed_empty.addAll? (ss.flatMap Supply.notes)
  have hcollects := Document.collects_addAll (ss.flatMap Supply.notes)
  refine ⟨c, (supplyAll?_eq _ _).trans hc, ?_, hb, ?_, ?_⟩
  · rw [hb]
    exact hcollects
  · intro k
    obtain ⟨c', hc', h', -⟩ := indexed_empty.addAll? ((ss.flatMap Supply.notes).take k)
    exact ⟨c', hc', h'⟩
  · simp [hc]

end Collector

end ApiBook.Script
