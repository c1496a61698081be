import ApiBook.Proofs.File.Change
import ApiBook.Proofs.Text.Bytes

/-! # Writing files into a directory

Files with different names that are written into one directory are there afterwards, and all other
files stay.
-/

namespace ApiBook

def Path.IsFileName (name : Text) : Prop :=
  '/' ∉ name ∧ Char.ofNat 0 ∉ name ∧ name ∉ ([[], ".", ".."] : List Text) ∧
    (String.ofList name).utf8ByteSize ≤ Spot.maxName

instance : DecidablePred Path.IsFileName := fun _ =>
  inferInstanceAs (Decidable (_ ∧ _ ∧ _ ∧ _))

namespace Tree

variable {t t' u : Tree} {d : Path} {dir names : List Text} {name : Text}
  {files : List (Text × Text)}

def bytes? (t : Tree) (names : List Text) : Option ByteArray := (t.kind? names).bind Kind.bytes?

/-- Writes texts into a directory, each into the file of a name. -/
def writeAll (d : Path) : List (Text × Text) → Tree → Except FileError Tree
  | [], t => .ok t
  | (name, text) :: files, t => (t.write (d.join name) text.bytes).bind (writeAll d files)

theorem follow_name (hd : t.kind? dir = some .directory) (hn : Path.IsFileName name) :
    Spot.follow t.kind? dir name = .ok (dir ++ [name]) := by
  obtain ⟨-, -, hdots, hlen⟩ := hn
  simp only [List.mem_cons, List.not_mem_nil, or_false, not_or] at hdots
  obtain ⟨hnil, hdot, hdots⟩ := hdots
  rw [Spot.follow, hd]
  simp only
  rw [if_neg (by simp only [hnil, hdot, or_self, not_false_eq_true]), if_neg hdots,
    if_neg (Nat.not_lt.2 hlen)]

/-- The entry of a name in a directory. -/
theorem place_join (hp : t.place d = .ok dir) (hd : t.kind? dir = some .directory)
    (hn : Path.IsFileName name) (hl : (String.ofList (d.join name)).utf8ByteSize ≤ maxPath) :
    t.place (d.join name) = .ok (dir ++ [name]) := by
  obtain ⟨hr, hp⟩ := place_eq_ok_iff.1 hp
  obtain ⟨hz, hne, -⟩ := refusal?_eq_none_iff.1 hr
  obtain ⟨above, hpieces, hjoin⟩ := Path.exists_pieces_join hne hn.1
  have habove : above.foldlM (Spot.follow t.kind?) (startNames d) = .ok dir := by
    rcases hpieces with h | h
    · exact h ▸ hp
    · rw [h, List.foldlM_append] at hp
      obtain ⟨dir', ha, hp⟩ := bind_eq_ok_iff.1 hp
      rw [List.foldlM_cons] at hp
      obtain ⟨dir'', hf, hp⟩ := bind_eq_ok_iff.1 hp
      rw [follow_nil (kind?_of_follow hf)] at hf
      rw [ha, Except.ok.inj hf]
      exact hp
  refine place_eq_ok_iff.2 ⟨refusal?_eq_none_iff.2 ⟨?_, ?_, hl⟩, ?_⟩
  · rw [Path.join_name hne hn.1]
    split <;> simp [hz, hn.2.1]
  · rw [Path.join_name hne hn.1]
    split <;> simp [hne]
  · rw [hjoin, List.foldlM_append, startNames, Path.isAbsolute_join hne hn.1]
    refine bind_eq_ok_iff.2 ⟨dir, habove, ?_⟩
    rw [List.foldlM_cons, follow_name hd hn]
    rfl

/-- The directory is there, and files can be written into it under these names. -/
structure CanWrite (t : Tree) (d : Path) (files : List (Text × Text)) : Prop where
  isDirectory : t.isDirectory d
  isFileName : ∀ f ∈ files, Path.IsFileName f.1
  short : ∀ f ∈ files, (String.ofList (d.join f.1)).utf8ByteSize ≤ maxPath
  free : ∀ f ∈ files, t.isDirectory (d.join f.1) = false

/-- The directory can be made, which gives the tree `u`, files can be written into it under these
names, and up to the last file nothing of that changes what is read at the kept paths. -/
structure Accepts (t : Tree) (d : Path) (files : List (Text × Text)) (kept : List Path) (u : Tree) :
    Prop where
  ne_nil : d ≠ []
  made : t.makeDirectories d (d.length + 1) = .ok u
  isFileName : ∀ f ∈ files, Path.IsFileName f.1
  short : ∀ f ∈ files, (String.ofList (d.join f.1)).utf8ByteSize ≤ maxPath
  free : ∀ f ∈ files, u.isDirectory (d.join f.1) = false
  kept : ∀ fs, fs <+: files → fs ≠ files → ∀ w, u.writeAll d fs = .ok w →
    ∀ p ∈ kept, w.read p = t.read p

/-- Every file of the list is there with its text, each in a place of its own, and in all other
places there are the files of the old tree. -/
structure Shows (t : Tree) (d : Path) (files : List (Text × Text)) (t' : Tree) : Prop where
  read : ∀ f ∈ files, t'.read (d.join f.1) = .ok f.2
  nodup : (files.map fun f => t'.place (d.join f.1)).Nodup
  other : ∀ names, (∀ f ∈ files, t'.place (d.join f.1) ≠ .ok names) →
    t'.bytes? names = t.bytes? names

variable {text : Text}

theorem CanWrite.place {f : Text × Text} (h : t.CanWrite d files) (hf : f ∈ files)
    (hp : t.place d = .ok dir) (hd : t.kind? dir = some .directory) :
    t.place (d.join f.1) = .ok (dir ++ [f.1]) ∧ t.kind? (dir ++ [f.1]) ≠ some .directory := by
  have hpf := place_join hp hd (h.isFileName f hf) (h.short f hf)
  refine ⟨hpf, fun hk => Bool.eq_false_iff.1 (h.free f hf) ?_⟩
  exact isDirectory_iff.2 ⟨_, hpf, hk⟩

/-- After a file has been written, the others can still be. -/
theorem CanWrite.write (h : t.CanWrite d ((name, text) :: files)) (hp : t.place d = .ok dir)
    (hd : t.kind? dir = some .directory) : ∃ u, t.write (d.join name) text.bytes = .ok u ∧
      (∀ m, u.kind? m = if m = dir ++ [name] then some (.file text.bytes) else t.kind? m) ∧
      u.place d = .ok dir ∧ u.kind? dir = some .directory ∧ u.CanWrite d files := by
  obtain ⟨hpn, hk⟩ := h.place List.mem_cons_self hp hd
  obtain ⟨u, hu, hkind⟩ := exists_write hpn hk text.bytes
  have hdir : ∀ m, t.kind? m = some .directory → u.kind? m = some .directory := by
    intro m hm
    have hne : m ≠ dir ++ [name] := by
      rintro rfl
      exact hk hm
    rw [hkind, if_neg hne, hm]
  have hp' := place_mono hdir hp
  refine ⟨u, hu, hkind, hp', hdir _ hd, isDirectory_iff.2 ⟨_, hp', hdir _ hd⟩,
    fun f hf => h.isFileName f (List.mem_cons_of_mem _ hf),
    fun f hf => h.short f (List.mem_cons_of_mem _ hf),
    fun f hf => Bool.eq_false_iff.2 fun hdf => ?_⟩
  obtain ⟨hpf, hkf⟩ := h.place (List.mem_cons_of_mem _ hf) hp hd
  obtain ⟨names, hn, hdf⟩ := isDirectory_iff.1 hdf
  rw [place_mono hdir hpf] at hn
  rw [← Except.ok.inj hn, hkind] at hdf
  split at hdf
  · cases hdf
  · exact hkf hdf

theorem CanWrite.kind?_writeAll (h : t.CanWrite d files) (hp : t.place d = .ok dir)
    (hd : t.kind? dir = some .directory) (hn : (files.map Prod.fst).Nodup) :
    ∃ u, t.writeAll d files = .ok u ∧
      (∀ f ∈ files, u.kind? (dir ++ [f.1]) = some (.file f.2.bytes)) ∧
      ∀ m, (∀ f ∈ files, m ≠ dir ++ [f.1]) → u.kind? m = t.kind? m := by
  induction files generalizing t with
  | nil => exact ⟨t, rfl, nofun, fun _ _ => rfl⟩
  | cons f files ih =>
    obtain ⟨name, text⟩ := f
    obtain ⟨hnew, hn⟩ := List.nodup_cons.1 hn
    obtain ⟨u, hu, hkind, hp', hd', hc⟩ := h.write hp hd
    obtain ⟨w, hw, hthere, hother⟩ := ih hc hp' hd' hn
    refine ⟨w, by rw [Tree.writeAll, hu]; exact hw, List.forall_mem_cons.2 ⟨?_, hthere⟩,
      fun m hm => ?_⟩
    · have hname : ∀ f ∈ files, dir ++ [name] ≠ dir ++ [f.1] := by
        intro f hf he
        have he : f.1 = name := by simpa using he.symm
        exact hnew (List.mem_map.2 ⟨f, hf, he⟩)
      rw [hother _ hname, hkind, if_pos rfl]
    · obtain ⟨hm, hms⟩ := List.forall_mem_cons.1 hm
      rw [hother m hms, hkind, if_neg hm]

theorem bytes?_eq_of_grows (h : t.Grows t') : t'.bytes? names = t.bytes? names := by
  rcases h names with h | ⟨h, h'⟩
  · rw [bytes?, bytes?, h]
  · rw [bytes?, bytes?, h, h']
    rfl

@[simp] theorem fromUTF8?_bytes (text : Text) :
    String.fromUTF8? text.bytes = some (String.ofList text) := by
  rw [String.fromUTF8?, Text.bytes, String.toUTF8_eq_toByteArray,
    dif_pos (String.ofList text).isValidUTF8]
  rfl

theorem read_of_kind? {p : Path} {text : Text} (hp : t.place p = .ok names)
    (hk : t.kind? names = some (.file text.bytes)) : t.read p = .ok text := by
  rw [read_eq, hp]
  change textAt (t.kind? names) = _
  rw [hk, textAt, fromUTF8?_bytes]
  exact congrArg _ String.toList_ofList

/-- Files that can be written into a directory are there afterwards, and no other file changes. -/
theorem CanWrite.writeAll (h : u.CanWrite d files) (hg : t.Grows u)
    (hn : (files.map Prod.fst).Nodup) :
    ∃ w, u.writeAll d files = .ok w ∧ t.Shows d files w := by
  obtain ⟨dir, hp, hd⟩ := isDirectory_iff.1 h.isDirectory
  obtain ⟨w, hw, hthere, hother⟩ := h.kind?_writeAll hp hd hn
  have hplace : ∀ f ∈ files, w.place (d.join f.1) = .ok (dir ++ [f.1]) := by
    intro f hf
    refine place_mono (fun m hm => ?_) (h.place hf hp hd).1
    rw [hother, hm]
    rintro f' hf' rfl
    exact (h.place hf' hp hd).2 hm
  refine ⟨w, hw, fun f hf => read_of_kind? (hplace f hf) (hthere f hf), ?_, fun names hnames => ?_⟩
  · rw [List.map_congr_left hplace]
    refine List.pairwise_map.2 ((List.pairwise_map.1 hn).imp fun hne he => hne ?_)
    simpa using he
  · rw [bytes?, hother, ← bytes?, bytes?_eq_of_grows hg]
    rintro f hf rfl
    exact hnames f hf (hplace f hf)

theorem CanWrite.mono {files' : List (Text × Text)} (h : t.CanWrite d files)
    (hsub : files' ⊆ files) : t.CanWrite d files' :=
  ⟨h.isDirectory, fun f hf => h.isFileName f (hsub hf), fun f hf => h.short f (hsub hf),
    fun f hf => h.free f (hsub hf)⟩

/-- Paths that lead to other places than those of the files, where no directory has been made, are
read as before. -/
theorem CanWrite.read_writeAll {files' : List (Text × Text)} {p : Path} {w : Tree}
    (h : u.CanWrite d files) (hg : t.Grows u) (hn : (files.map Prod.fst).Nodup)
    (hp : t.place p = .ok names) (hk : u.kind? names = t.kind? names)
    (hne : ∀ f ∈ files, u.place (d.join f.1) ≠ .ok names) (hpre : files' <+: files)
    (hw : u.writeAll d files' = .ok w) : w.read p = t.read p := by
  obtain ⟨dir, hpd, hd⟩ := isDirectory_iff.1 h.isDirectory
  obtain ⟨w', hw', -, hother⟩ := (h.mono hpre.subset).kind?_writeAll hpd hd
    (hn.sublist (hpre.sublist.map _))
  obtain rfl := Except.ok.inj (hw'.symm.trans hw)
  have hsame : w'.kind? names = t.kind? names := by
    rw [hother names, hk]
    rintro f hf rfl
    exact hne f (hpre.subset hf) (h.place (hpre.subset hf) hpd hd).1
  have hdir : ∀ m, t.kind? m = some .directory → w'.kind? m = some .directory := by
    intro m hm
    rw [hother m, hg.directory hm]
    rintro f hf rfl
    exact (h.place (hpre.subset hf) hpd hd).2 (hg.directory hm)
  rw [Tree.read_eq, Tree.read_eq, place_mono hdir hp, hp]
  exact congrArg textAt hsame

theorem Accepts.canWrite {kept : List Path} (h : t.Accepts d files kept u) (hne : files ≠ []) :
    u.CanWrite d files := by
  refine ⟨isDirectory_of_makeDirectories h.made h.ne_nil ?_, h.isFileName, h.short, h.free⟩
  obtain ⟨f, hf⟩ := List.exists_mem_of_ne_nil files hne
  have hl := h.short f hf
  rw [Path.join_name h.ne_nil (h.isFileName f hf).1] at hl
  split at hl <;> rw [Text.utf8ByteSize_append] at hl <;> omega

end Tree

end ApiBook
