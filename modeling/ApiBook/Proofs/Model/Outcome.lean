import ApiBook.Proofs.Model.Join

/-! # What joining members counts

Among members with distinct names each joining member meets the one of its name or none. The old
members stay in their places with their gaps filled, the new ones follow in their own order, and
the outcome counts the new ones and the old ones that changed.
-/

namespace ApiBook

variable {m x y : Member} {ms xs ys : List Member}

namespace Member

/-- A member with its gaps filled from the first of its name. -/
def absorbFrom (ms : List Member) (x : Member) : Member :=
  match ms.find? (·.name = x.name) with
  | some m => (x.absorb m).1
  | none => x

@[simp] theorem absorbFrom_nil (x : Member) : x.absorbFrom [] = x := rfl

@[simp] theorem absorbFrom_name (ms : List Member) (x : Member) :
    (x.absorbFrom ms).name = x.name := by
  unfold absorbFrom
  split <;> rfl

theorem absorbFrom_cons_of_eq (h : m.name = x.name) (ms : List Member) :
    x.absorbFrom (m :: ms) = (x.absorb m).1 := by
  rw [absorbFrom, List.find?_cons_of_pos (by simpa using h)]

theorem absorbFrom_cons_of_ne (h : m.name ≠ x.name) (ms : List Member) :
    x.absorbFrom (m :: ms) = x.absorbFrom ms := by
  rw [absorbFrom, List.find?_cons_of_neg (by simpa using h), absorbFrom]

theorem absorbFrom_of_notMem (h : x.name ∉ ms.map (·.name)) : x.absorbFrom ms = x := by
  have hnone : ms.find? (·.name = x.name) = none := by
    refine List.find?_eq_none.2 fun m hm hname => ?_
    exact h (List.mem_map.2 ⟨m, hm, of_decide_eq_true hname⟩)
  rw [absorbFrom, hnone]

end Member

namespace TypeDoc

variable {t : TypeDoc}

/-- The members whose names are not among those of `xs`. -/
def newMembers (xs ms : List Member) : List Member :=
  ms.filter fun m => xs.all fun x => x.name ≠ m.name

theorem newMembers_eq (xs ms : List Member) :
    newMembers xs ms = ms.filter fun m => m.name ∉ xs.map (·.name) :=
  List.filter_congr fun m _ => by simp [List.all_eq]

theorem newMembers_congr (h : ∀ m ∈ ms, m.name ∈ xs.map (·.name) ↔ m.name ∈ ys.map (·.name)) :
    newMembers xs ms = newMembers ys ms := by
  rw [newMembers_eq, newMembers_eq]
  exact List.filter_congr fun m hm => by simp only [h m hm]

theorem newMembers_cons_of_mem (h : m.name ∈ xs.map (·.name)) (ms : List Member) :
    newMembers xs (m :: ms) = newMembers xs ms := by
  rw [newMembers_eq, newMembers_eq, List.filter_cons_of_neg (by simpa using h)]

theorem newMembers_cons_of_notMem (h : m.name ∉ xs.map (·.name)) (ms : List Member) :
    newMembers xs (m :: ms) = m :: newMembers xs ms := by
  rw [newMembers_eq, newMembers_eq, List.filter_cons_of_pos (by simpa using h)]

/-- The members of a type and the outcome after members with distinct names have joined. -/
def joined (xs ms : List Member) : List Member × Outcome :=
  (xs.map (·.absorbFrom ms) ++ newMembers xs ms,
    ⟨(newMembers xs ms).length, xs.countP fun x => x.absorbFrom ms ≠ x⟩)

theorem joinMember_of_new (h : m.name ∉ xs.map (·.name)) :
    joinMember m xs = (xs ++ [m], { appended := 1 }) := by
  induction xs with
  | nil => rfl
  | cons x xs ih =>
    obtain ⟨hx, hxs⟩ := not_or.1 (List.mem_cons.not.1 h)
    rw [joinMember_of_name_ne (Ne.symm hx), ih hxs]
    rfl

theorem joinMember_append_cons (h : m.name ∉ xs.map (·.name)) (hx : x.name = m.name)
    (ys : List Member) : joinMember m (xs ++ x :: ys) =
      (xs ++ (x.absorb m).1 :: ys, { augmented := if (x.absorb m).2 then 1 else 0 }) := by
  induction xs with
  | nil => exact joinMember_of_name_eq hx
  | cons y xs ih =>
    obtain ⟨hy, hxs⟩ := not_or.1 (List.mem_cons.not.1 h)
    rw [List.cons_append, joinMember_of_name_ne (Ne.symm hy), ih hxs]
    rfl

theorem joined_cons_of_new (hm : m.name ∉ ms.map (·.name)) (h : m.name ∉ xs.map (·.name)) :
    joined xs (m :: ms) =
      ((joined (xs ++ [m]) ms).1, Outcome.plus { appended := 1 } (joined (xs ++ [m]) ms).2) := by
  have hne : ∀ x ∈ xs, m.name ≠ x.name := by
    rintro x hx he
    exact h (List.mem_map.2 ⟨x, hx, he.symm⟩)
  have hxs : ∀ x ∈ xs, x.absorbFrom (m :: ms) = x.absorbFrom ms :=
    fun x hx => Member.absorbFrom_cons_of_ne (hne x hx) ms
  have hself : m.absorbFrom ms = m := Member.absorbFrom_of_notMem hm
  have hnew : newMembers (xs ++ [m]) ms = newMembers xs ms := by
    refine newMembers_congr fun y hy => ?_
    have hym : y.name ≠ m.name := fun he => hm (List.mem_map.2 ⟨y, hy, he⟩)
    simp [hym]
  have hcount : xs.countP (fun x => x.absorbFrom (m :: ms) ≠ x) =
      xs.countP fun x => x.absorbFrom ms ≠ x :=
    List.countP_congr fun x hx => by rw [hxs x hx]
  rw [joined, joined, newMembers_cons_of_notMem h, hnew, List.map_congr_left hxs, hcount]
  simp [Outcome.plus, hself, Nat.add_comm]

/-- A member that is there already takes what the joining one tells, and nothing from those that
join after it. -/
theorem joined_cons_of_old (hm : m.name ∉ ms.map (·.name)) (hx : x.name = m.name)
    (hxs : m.name ∉ xs.map (·.name)) (hys : m.name ∉ ys.map (·.name)) :
    joined (xs ++ x :: ys) (m :: ms) =
      ((joined (xs ++ (x.absorb m).1 :: ys) ms).1,
        Outcome.plus { augmented := if (x.absorb m).2 then 1 else 0 }
          (joined (xs ++ (x.absorb m).1 :: ys) ms).2) := by
  have hother : ∀ zs : List Member, m.name ∉ zs.map (·.name) →
      ∀ z ∈ zs, z.absorbFrom (m :: ms) = z.absorbFrom ms := by
    intro zs hzs z hz
    exact Member.absorbFrom_cons_of_ne (fun he => hzs (List.mem_map.2 ⟨z, hz, he.symm⟩)) ms
  have hcount : ∀ zs : List Member, m.name ∉ zs.map (·.name) →
      zs.countP (fun z => z.absorbFrom (m :: ms) ≠ z) =
        zs.countP fun z => z.absorbFrom ms ≠ z :=
    fun zs hzs => List.countP_congr fun z hz => by rw [hother zs hzs z hz]
  have hself : (x.absorb m).1.absorbFrom ms = (x.absorb m).1 :=
    Member.absorbFrom_of_notMem (by rwa [Member.absorb_name, hx])
  have hx' : x.absorbFrom (m :: ms) = (x.absorb m).1 := Member.absorbFrom_cons_of_eq hx.symm ms
  have hnew : newMembers (xs ++ x :: ys) (m :: ms) =
      newMembers (xs ++ (x.absorb m).1 :: ys) ms := by
    rw [newMembers_cons_of_mem (by simp [hx])]
    exact newMembers_congr fun y _ => by simp
  rw [joined, joined, hnew, List.map_append, List.map_cons, List.map_append, List.map_cons,
    List.map_congr_left (hother xs hxs), List.map_congr_left (hother ys hys), hx', hself,
    List.countP_append, List.countP_cons, List.countP_append, List.countP_cons, hcount xs hxs,
    hcount ys hys, hx', hself]
  simp [Outcome.plus]
  omega

theorem joinAll_eq (hm : (ms.map (·.name)).Nodup) (ht : (t.members.map (·.name)).Nodup) :
    t.joinAll ms = ({ t with members := (joined t.members ms).1 }, (joined t.members ms).2) := by
  induction ms generalizing t with
  | nil => simp [joinAll, joined, newMembers]
  | cons m ms ih =>
    obtain ⟨hnew, hms⟩ := List.nodup_cons.1 hm
    have ht' : ((t.join m).1.members.map (·.name)).Nodup := by
      change ((joinMember m t.members).1.map (·.name)).Nodup
      rw [joinMember_names]
      exact nodup_concat_of_new ht
    rw [joinAll_cons, ih hms ht']
    by_cases hmem : m.name ∈ t.members.map (·.name)
    · obtain ⟨x, hx, hxm⟩ := List.mem_map.1 hmem
      obtain ⟨xs, ys, hsplit⟩ := List.append_of_mem hx
      rw [hsplit, List.map_append, List.map_cons, hxm] at ht
      obtain ⟨-, hys, hdisj⟩ := List.nodup_append.1 ht
      have hxs : m.name ∉ xs.map (·.name) := fun h => hdisj _ h _ List.mem_cons_self rfl
      have hjoin := joinMember_append_cons hxs hxm ys
      simp only [join, hsplit, hjoin, joined_cons_of_old hnew hxm hxs (List.nodup_cons.1 hys).1]
    · simp only [join, joinMember_of_new hmem, joined_cons_of_new hnew hmem]

end TypeDoc

end ApiBook
