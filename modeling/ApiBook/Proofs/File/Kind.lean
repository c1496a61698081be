import ApiBook.File.Tree

/-! # What is where in a file tree

Apart from stamps, a file tree is a table that tells for each list of names whether there is a
directory, or which bytes are in the file there. Putting a file or an empty directory into a
directory changes one place of the table.
-/

namespace ApiBook

/-- A directory, or a file with its bytes. -/
inductive Kind where
  | file (bytes : ByteArray)
  | directory

namespace Kind

instance : DecidableEq Kind
  | file bytes, file bytes' => decidable_of_iff (bytes.data = bytes'.data) (by
      rw [file.injEq, ByteArray.ext_iff])
  | directory, directory => isTrue rfl
  | file _, directory => isFalse nofun
  | directory, file _ => isFalse nofun

def bytes? : Kind → Option ByteArray
  | file bytes => some bytes
  | directory => none

end Kind

namespace Node

def kind : Node → Kind
  | file bytes _ => .file bytes
  | directory _ _ => .directory

def at? : List Text → Node → Option Node
  | [], node => some node
  | name :: names, node => (node.entry? name).bind (at? names)

def kind? (node : Node) (names : List Text) : Option Kind := (node.at? names).map kind

variable {root node : Node} {dir names : List Text} {name : Text} {k : Kind} {now : Nat}
  {stamp : Stamp} {entries : List (Text × Node)} {f : Node → Node}

theorem at?_append (dir names : List Text) (root : Node) :
    root.at? (dir ++ names) = (root.at? dir).bind (at? names) := by
  induction dir generalizing root with
  | nil => rfl
  | cons d dir ih =>
    rw [List.cons_append, at?, at?, Option.bind_assoc]
    exact congrArg _ (funext fun node => ih node)

@[simp] theorem kind?_nil : root.kind? [] = some root.kind := rfl

@[simp] theorem kind?_cons :
    root.kind? (name :: names) = (root.entry? name).bind (·.kind? names) := by
  rw [kind?, at?, Option.map_bind]
  rfl

theorem kind?_append (dir names : List Text) (root : Node) :
    root.kind? (dir ++ names) = (root.at? dir).bind (·.kind? names) := by
  rw [kind?, at?_append, Option.map_bind]
  rfl

theorem kind?_of_kind?_append (h : root.kind? (dir ++ name :: names) = some k) :
    root.kind? dir = some .directory := by
  rw [kind?_append] at h
  obtain ⟨node, hn, h⟩ := Option.bind_eq_some_iff.1 h
  cases node with
  | file bytes stamp => cases h
  | directory stamp entries => rw [kind?, hn, Option.map_some, kind]

theorem kind_of_kind? (h : root.kind? names = some .directory) : root.kind = .directory := by
  cases names with
  | nil => exact Option.some.inj h
  | cons name names =>
    have h' : root.kind? ([] ++ name :: names) = some .directory := h
    exact Option.some.inj (kind?_of_kind?_append h')

theorem exists_directory (h : root.kind = .directory) :
    ∃ stamp entries, root = directory stamp entries := by
  cases root with
  | file bytes stamp => cases h
  | directory stamp entries => exact ⟨stamp, entries, rfl⟩

/-! ## Entries -/

theorem lookup_cons_ite {e : Text × Node} :
    (e :: entries).lookup name = if name = e.1 then some e.2 else entries.lookup name := by
  obtain ⟨n, node⟩ := e
  rw [List.lookup_cons]
  by_cases h : name = n
  · simp [h]
  · simp [h, beq_false_of_ne h]

theorem any_eq_isSome_lookup :
    (entries.any fun e => decide (e.1 = name)) = (entries.lookup name).isSome := by
  induction entries with
  | nil => rfl
  | cons e es ih =>
    rw [List.any_cons, ih, lookup_cons_ite]
    by_cases h : e.1 = name
    · simp [h]
    · simp [h, Ne.symm h]

theorem lookup_onEntry {m : Text} : (onEntry name f entries).lookup m =
    if m = name then (entries.lookup m).map f else entries.lookup m := by
  induction entries with
  | nil => simp [onEntry]
  | cons e es ih =>
    rw [onEntry] at ih ⊢
    rw [List.map_cons, lookup_cons_ite, ih, lookup_cons_ite]
    by_cases he : e.1 = name
    · by_cases hm : m = name <;> simp [he, hm]
    · by_cases hm : m = e.1
      · simp [he, hm]
      · simp [he, hm]

@[simp] theorem entry?_directory :
    entry? name (directory stamp entries) = entries.lookup name := rfl

/-- What is put into a directory is the entry of its name, and all other entries stay. -/
theorem entry?_put_singleton {m : Text} :
    entry? m (put now node [name] (.directory stamp entries)) =
      if m = name then some node else entry? m (directory stamp entries) := by
  rw [put]
  split
  · rename_i h
    rw [any_eq_isSome_lookup] at h
    obtain ⟨old, hold⟩ := Option.isSome_iff_exists.1 h
    rw [entry?_directory, lookup_onEntry, entry?_directory]
    split
    · rename_i hm
      rw [hm, hold, Option.map_some]
    · rfl
  · rename_i h
    rw [any_eq_isSome_lookup, Bool.not_eq_true, Option.isSome_eq_false_iff,
      Option.isNone_iff_eq_none] at h
    rw [entry?_directory, List.lookup_append, lookup_cons_ite, entry?_directory]
    split
    · rename_i hm
      rw [hm, h, Option.none_or]
    · rw [List.lookup_nil, Option.or_none]

theorem put_cons (h : names ≠ []) : put now node (name :: names) (.directory stamp entries) =
    .directory stamp (onEntry name (put now node names) entries) := by
  cases names with
  | nil => exact absurd rfl h
  | cons n ns => rfl

theorem kind_put (h : names ≠ []) : (put now node names root).kind = root.kind := by
  match names, root with
  | _ :: _, .file _ _ => rfl
  | [name], .directory stamp entries =>
    rw [put]
    split <;> rfl
  | _ :: _ :: _, .directory _ _ => rfl

/-! ## Putting a node into a directory -/

theorem kind?_eq_none_of_file (h : root.kind? dir ≠ some .directory) (name : Text)
    (names : List Text) : root.kind? (dir ++ name :: names) = none := by
  rw [Option.eq_none_iff_forall_not_mem]
  exact fun k hk => h (kind?_of_kind?_append hk)

/-- Putting a file or an empty directory into a directory, but not in the place of another
directory, changes what is there and nothing else. -/
theorem kind?_put (hnode : ∀ m, node.entry? m = none) (hd : root.kind? dir = some .directory)
    (hn : root.kind? (dir ++ [name]) ≠ some .directory) (names : List Text) :
    (put now node (dir ++ [name]) root).kind? names =
      if names = dir ++ [name] then some node.kind else root.kind? names := by
  induction dir generalizing root names with
  | nil =>
    obtain ⟨stamp, entries, rfl⟩ := exists_directory (kind_of_kind? hd)
    cases names with
    | nil => simp [kind_put]
    | cons m names =>
      rw [List.nil_append, kind?_cons, entry?_put_singleton]
      by_cases hm : m = name
      · subst hm
        rw [if_pos rfl, Option.bind_some]
        cases names with
        | nil => simp
        | cons n names =>
          rw [kind?_cons, hnode, Option.bind_none, if_neg (by simp)]
          exact (kind?_eq_none_of_file hn n names).symm
      · simp [hm]
  | cons d dir ih =>
    -- Only the entry `d` changes, and what changes below it is the induction hypothesis.
    obtain ⟨stamp, entries, rfl⟩ := exists_directory (kind_of_kind? hd)
    rw [kind?_cons] at hd
    obtain ⟨child, hc, hchild⟩ := Option.bind_eq_some_iff.1 hd
    rw [List.cons_append, kind?_cons, hc, Option.bind_some] at hn
    cases names with
    | nil => simp [kind_put]
    | cons m names =>
      rw [List.cons_append, put_cons (by simp), kind?_cons, kind?_cons, entry?_directory,
        lookup_onEntry]
      rw [entry?_directory] at hc ⊢
      by_cases hm : m = d
      · subst hm
        rw [if_pos rfl, hc, Option.map_some, Option.bind_some, Option.bind_some, ih hchild hn]
        simp only [List.cons.injEq, true_and]
      · rw [if_neg hm, if_neg (by simp [hm])]

end Node

end ApiBook
