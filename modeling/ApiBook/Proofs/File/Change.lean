import ApiBook.Proofs.File.Place

/-! # Changing file trees

Writing a file changes the bytes in one place. Making directories only adds directories, and makes
no further change once they are there.
-/

namespace ApiBook.Tree

variable {t t' u : Tree} {p : Path} {names dir : List Text} {name : Text} {bytes : ByteArray}

/-! ## Writing -/

theorem kind?_put (node : Node) (hp : t.InDirectory names) (hk : t.kind? names ≠ some .directory)
    (hnode : ∀ m, node.entry? m = none) (m : List Text) :
    (t.put names node).kind? m = if m = names then some node.kind else t.kind? m := by
  obtain ⟨dir, name, rfl, hd⟩ := hp.resolve_left hk
  exact Node.kind?_put hnode hd hk m

theorem exists_write (h : t.place p = .ok names) (hk : t.kind? names ≠ some .directory)
    (bytes : ByteArray) : ∃ t', t.write p bytes = .ok t' ∧
      ∀ m, t'.kind? m = if m = names then some (.file bytes) else t.kind? m := by
  obtain ⟨s, hs, rfl, hn⟩ := spot_of_place h
  refine ⟨t.put s.names (.file bytes (.clock t.now)), ?_,
    kind?_put _ (inDirectory_place h) hk fun _ => rfl⟩
  rw [write, hs]
  match hnode : s.node with
  | none => simp only [hnode]
  | some (.file _ _) => simp only [hnode]
  | some (.directory _ _) => exact absurd (hn.trans (congrArg _ hnode)) hk

/-! ## Making directories -/

/-- Directories may have come, but nothing else. -/
def Grows (t t' : Tree) : Prop :=
  ∀ names, t'.kind? names = t.kind? names ∨ t.kind? names = none ∧ t'.kind? names = some .directory

theorem Grows.refl (t : Tree) : t.Grows t := fun _ => .inl rfl

theorem Grows.trans (h : t.Grows t') (h' : t'.Grows u) : t.Grows u := by
  intro names
  rcases h names with h | ⟨h, hd⟩ <;> rcases h' names with h' | ⟨h', hd'⟩
  · exact .inl (h'.trans h)
  · exact .inr ⟨h ▸ h', hd'⟩
  · exact .inr ⟨h, h'.trans hd⟩
  · exact .inr ⟨h, hd'⟩

theorem Grows.directory (h : t.Grows t') (hd : t.kind? names = some .directory) :
    t'.kind? names = some .directory := by
  rcases h names with h | ⟨-, h⟩
  · exact h.trans hd
  · exact h

/-- A path that leads somewhere still leads there as long as directories stay directories. -/
theorem place_mono (h : ∀ m, t.kind? m = some .directory → t'.kind? m = some .directory)
    (hp : t.place p = .ok names) : t'.place p = .ok names := by
  obtain ⟨hr, hp⟩ := place_eq_ok_iff.1 hp
  refine place_eq_ok_iff.2 ⟨hr, ?_⟩
  generalize p.pieces = pieces, startNames p = above at hp ⊢
  induction pieces generalizing above with
  | nil => exact hp
  | cons piece pieces ih =>
    rw [List.foldlM_cons] at hp ⊢
    obtain ⟨below, hf, hp⟩ := bind_eq_ok_iff.1 hp
    have hd := kind?_of_follow hf
    refine bind_eq_ok_iff.2 ⟨below, ?_, ih _ hp⟩
    rw [← hf, Spot.follow, Spot.follow, hd, h _ hd]

theorem makeDirectory_eq_ok (h : t.makeDirectory p = .ok t') :
    ∃ names, t.place (bare p) = .ok names ∧ t.Grows t' ∧ t'.kind? names = some .directory := by
  rw [makeDirectory] at h
  cases hs : t.spot (bare p) with
  | error e =>
    rw [hs] at h
    cases h
  | ok s =>
    obtain ⟨hp, hk⟩ := place_of_spot hs
    rw [hs] at h
    simp only at h
    split at h
    · cases h
    · rename_i hn
      obtain rfl := Except.ok.inj h
      rw [hn, Option.map_none] at hk
      have hput := kind?_put (.directory (.clock t.now) []) (inDirectory_place hp)
        (by simp [hk]) fun _ => rfl
      refine ⟨s.names, hp, fun m => ?_, ?_⟩
      · rw [hput]
        split
        · rename_i hm
          exact .inr ⟨hm ▸ hk, rfl⟩
        · exact .inl rfl
      · rw [hput, if_pos rfl]
        rfl

/-- Slashes at the end of a path make no difference to where it leads. -/
theorem place_bare (hp : t.place p = .ok names) : t.place (bare p) = .ok names := by
  obtain ⟨hr, hp⟩ := place_eq_ok_iff.1 hp
  obtain ⟨hz, hne, hl⟩ := refusal?_eq_none_iff.1 hr
  obtain ⟨n, hb, hne'⟩ := Path.exists_eq_bare_append hne
  generalize bare p = b at *
  subst hb
  rw [Text.utf8ByteSize_append] at hl
  rw [Path.pieces_append_slashes, List.foldlM_append, startNames, Path.isAbsolute_append hne'] at hp
  obtain ⟨names', hb, hp⟩ := bind_eq_ok_iff.1 hp
  refine place_eq_ok_iff.2 ⟨refusal?_eq_none_iff.2 ⟨?_, hne', by omega⟩, ?_⟩
  · exact fun h => hz (List.mem_append_left _ h)
  · cases n with
    | zero => exact Except.ok.inj hp ▸ hb
    | succ n =>
      have hd : t.kind? names' = some .directory := by
        rw [List.replicate_succ, List.foldlM_cons] at hp
        obtain ⟨_, hf, -⟩ := bind_eq_ok_iff.1 hp
        exact kind?_of_follow hf
      rw [foldlM_follow_nils hd] at hp
      exact Except.ok.inj hp ▸ hb

theorem place_of_bare (hp : t.place (bare p) = .ok names) (hd : t.kind? names = some .directory)
    (hne : p ≠ []) (hl : (String.ofList p).utf8ByteSize ≤ maxPath) : t.place p = .ok names := by
  obtain ⟨hr, hp⟩ := place_eq_ok_iff.1 hp
  obtain ⟨hz, -, -⟩ := refusal?_eq_none_iff.1 hr
  obtain ⟨n, hb, hne'⟩ := Path.exists_eq_bare_append hne
  generalize bare p = b at *
  subst hb
  refine place_eq_ok_iff.2 ⟨refusal?_eq_none_iff.2 ⟨?_, hne, hl⟩, ?_⟩
  · simp only [List.mem_append, not_or, List.mem_replicate]
    refine ⟨hz, fun h => absurd h.2 (by decide)⟩
  · rw [Path.pieces_append_slashes, List.foldlM_append, startNames, Path.isAbsolute_append hne']
    exact bind_eq_ok_iff.2 ⟨names, hp, foldlM_follow_nils hd n⟩

theorem makeDirectories_eq_ok {depth : Nat} (h : t.makeDirectories p (depth + 1) = .ok t') :
    p = [] ∧ t' = t ∨ ∃ u, (u = t ∨ ∃ above, t.makeDirectories above depth = .ok u) ∧
      (u.makeDirectory p = .ok t' ∨ t' = u ∧ u.isDirectory p) := by
  rw [makeDirectories] at h
  split at h
  · rename_i hp
    exact .inl ⟨hp, (Except.ok.inj h).symm⟩
  refine .inr ?_
  split at h
  · rename_i hm
    exact ⟨t, .inl rfl, .inl (h ▸ hm)⟩
  · split at h
    · cases h
    split at h
    · cases h
    rename_i u hu
    refine ⟨u, .inr ⟨_, hu⟩, ?_⟩
    split at h
    · rename_i hm
      exact .inl (h ▸ hm)
    · split at h
      · rename_i hd
        exact .inr ⟨(Except.ok.inj h).symm, hd⟩
      · cases h
  · split at h
    · rename_i hd
      exact ⟨t, .inl rfl, .inr ⟨(Except.ok.inj h).symm, hd⟩⟩
    · cases h

theorem Grows.of_makeDirectories {depth : Nat} (h : t.makeDirectories p depth = .ok t') :
    t.Grows t' := by
  induction depth generalizing t' p with
  | zero => cases h
  | succ depth ih =>
    rcases makeDirectories_eq_ok h with ⟨-, rfl⟩ | ⟨u, hu, h⟩
    · exact .refl t'
    have htu : t.Grows u := by
      rcases hu with rfl | ⟨above, hu⟩
      · exact .refl u
      · exact ih hu
    rcases h with h | ⟨rfl, -⟩
    · obtain ⟨_, -, hg, -⟩ := makeDirectory_eq_ok h
      exact htu.trans hg
    · exact htu

theorem isDirectory_of_makeDirectories {depth : Nat} (h : t.makeDirectories p depth = .ok t')
    (hne : p ≠ []) (hl : (String.ofList p).utf8ByteSize ≤ maxPath) : t'.isDirectory p := by
  cases depth with
  | zero => cases h
  | succ depth =>
    rcases makeDirectories_eq_ok h with ⟨hp, -⟩ | ⟨u, -, h | ⟨rfl, hd⟩⟩
    · exact absurd hp hne
    · obtain ⟨names, hp, hg, hd⟩ := makeDirectory_eq_ok h
      have hp := place_mono (fun _ => hg.directory) hp
      exact isDirectory_iff.2 ⟨names, place_of_bare hp hd hne hl, hd⟩
    · exact hd

theorem makeDirectories_of_isDirectory (h : t.isDirectory p) (depth : Nat) :
    t.makeDirectories p (depth + 1) = .ok t := by
  obtain ⟨names, hp, hd⟩ := isDirectory_iff.1 h
  obtain ⟨s, hs, rfl, hn⟩ := spot_of_place (place_bare hp)
  have hm : t.makeDirectory p = .error .alreadyExists := by
    rw [makeDirectory, hs]
    rw [hd] at hn
    obtain ⟨node, hnode, -⟩ := Option.map_eq_some_iff.1 hn.symm
    simp only [hnode]
  simp only [makeDirectories, hm, h, ↓reduceIte, ite_self]

theorem makeDirectories_eq_ok_addDirectory (h : (t.makeDirectories p (p.length + 1)).isOk) :
    t.makeDirectories p (p.length + 1) = .ok (t.addDirectory p) := by
  rw [addDirectory]
  cases hm : t.makeDirectories p (p.length + 1) with
  | error e => simp [hm, Except.isOk, Except.toBool] at h
  | ok u => rfl

end ApiBook.Tree
