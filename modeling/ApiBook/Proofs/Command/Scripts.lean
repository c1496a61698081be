import ApiBook.Proofs.Command.Session
import ApiBook.Proofs.File.Order
import ApiBook.Proofs.Json.RoundTrip

/-! # What scripts document

The arguments of the command stand for scripts in some order. What is shown depends on this order
only where two of the scripts are spelled differently and have the same components: of these the
first one is shown, under its own spelling.
-/

namespace ApiBook

open Search (arrange)

namespace Tree

/-- The scripts that an argument stands for if it leads to a file or to a directory. -/
def scriptsAt (t : Tree) (a : Path) : List Path :=
  if t.isFile a then [a]
  else
    ((((t.children a).toOption.getD []).map a.join).filter
      fun p => Path.extension? p == some "js".toList).filter t.isFile

def scripts (t : Tree) (as : List Path) : List Path := as.flatMap t.scriptsAt

/-- An argument that leads to a file or a directory, whose scripts can be read. -/
structure CanParse (t : Tree) (a : Path) : Prop where
  there : t.isFile a ∨ t.isDirectory a
  readable : ∀ p ∈ t.scriptsAt a, (t.read p).toOption.isSome

instance (t : Tree) (a : Path) : Decidable (t.CanParse a) :=
  decidable_of_iff
    ((t.isFile a ∨ t.isDirectory a) ∧ ∀ p ∈ t.scriptsAt a, (t.read p).toOption.isSome)
    ⟨fun h => ⟨h.1, h.2⟩, fun h => ⟨h.there, h.readable⟩⟩

def document (t : Tree) (p : Path) : Text × Json :=
  (p, (Script.Document.ofLines (Text.lines ((t.read p).toOption.getD []))).toJson)

/-- What is documented by scripts, each once, in the order of their paths. -/
def documents (t : Tree) (ps : List Path) : List (Text × Json) :=
  ((arrange ps).map t.document).mergeSort fun a b => Text.le a.1 b.1

def shown (t : Tree) (ps : List Path) : Text := (Json.object (t.documents ps)).render ++ ['\n']

variable {t : Tree} {a p q : Path} {as bs ps qs : List Path}

theorem exists_children (h : t.isDirectory a) : ∃ names, t.children a = .ok names := by
  unfold isDirectory at h
  unfold children
  split at h
  · rename_i stamp entries hl
    rw [hl]
    exact ⟨_, rfl⟩
  · cases h

theorem mem_scripts_congr (h : ∀ a, a ∈ as ↔ a ∈ bs) (p : Path) :
    p ∈ t.scripts as ↔ p ∈ t.scripts bs := by
  simp only [scripts, List.mem_flatMap, h]

theorem readable_of_mem_scripts (h : ∀ a ∈ as, t.CanParse a) :
    ∀ p ∈ t.scripts as, (t.read p).toOption.isSome := by
  intro p hp
  obtain ⟨a, ha, hp⟩ := List.mem_flatMap.1 hp
  exact (h a ha).readable p hp

theorem perm_keys_documents (t : Tree) (ps : List Path) :
    ((t.documents ps).map Prod.fst).Perm (arrange ps) := by
  have h := (List.mergeSort_perm ((arrange ps).map t.document) fun a b => Text.le a.1 b.1).map
    Prod.fst
  have hid : Prod.fst ∘ t.document = id := rfl
  rwa [List.map_map, hid, List.map_id] at h

theorem mem_documents_iff {e : Text × Json} :
    e ∈ t.documents ps ↔ ∃ p ∈ arrange ps, t.document p = e := by
  rw [documents, List.mem_mergeSort, List.mem_map]

theorem document_eq_of_same (h : Path.same p q) (hp : (t.read p).toOption.isSome)
    (hq : (t.read q).toOption.isSome) : (t.document p).2 = (t.document q).2 := by
  have hread : (t.read p).toOption.getD [] = (t.read q).toOption.getD [] := by
    cases hs : t.read p with
    | error e => simp [hs, Except.toOption] at hp
    | ok s =>
      cases hs' : t.read q with
      | error e => simp [hs', Except.toOption] at hq
      | ok s' => rw [read_eq_of_same h hs hs']
  unfold document
  rw [hread]

theorem exists_mem_documents (hmem : ∀ p ∈ ps, p ∈ qs)
    (hread : ∀ p ∈ qs, (t.read p).toOption.isSome) {e : Text × Json} (he : e ∈ t.documents ps) :
    ∃ e' ∈ t.documents qs, Path.same e.1 e'.1 ∧ e.2 = e'.2 := by
  obtain ⟨p, hp, rfl⟩ := mem_documents_iff.1 he
  have hp := hmem p (Search.arrange_subset _ hp)
  obtain ⟨q, hq, hpq⟩ := Search.exists_mem_arrange hp
  refine ⟨t.document q, mem_documents_iff.2 ⟨q, hq, rfl⟩, hpq, ?_⟩
  exact document_eq_of_same hpq (hread p hp) (hread q (Search.arrange_subset _ hq))

/-- What is shown tells which scripts are shown, and in which spelling. -/
theorem shown_eq_iff : t.shown ps = t.shown qs ↔ arrange ps = arrange qs := by
  constructor
  · intro h
    have hjson := congrArg Json.read? (List.append_cancel_right h)
    rw [Json.read?_render, Json.read?_render, Option.some.injEq, Json.object.injEq] at hjson
    have hkeys := perm_keys_documents t ps
    rw [hjson] at hkeys
    exact Search.arrange_eq_iff.2 fun p =>
      (hkeys.symm.trans (perm_keys_documents t qs)).mem_iff
  · intro h
    unfold shown documents
    rw [h]

/-- The same is printed for the same scripts in two orders if and only if each path is first spelled
alike in both of them. -/
theorem shown_eq_iff_of_mem (h : ∀ p, p ∈ ps ↔ p ∈ qs) : t.shown ps = t.shown qs ↔
    ∀ p ∈ ps, ps.find? (Path.same p) = qs.find? (Path.same p) :=
  shown_eq_iff.trans (Search.arrange_eq_iff_of_mem h)

end Tree

namespace Command

variable {σ : Session} {a p : Path} {as : List Path}

theorem run_scripts {names : List Text} (h : σ.tree.children a = .ok names) :
    (Search.scripts a : ExceptT Report (StateM Session) (Except FileError (List Path))).run σ =
      (.ok (.ok (((names.map a.join).filter
        fun p => Path.extension? p == some "js".toList).filter σ.tree.isFile)), σ) := by
  unfold Search.scripts
  refine (run_bind_of_ok (a := σ.tree.children a) rfl).trans ?_
  rw [h]
  refine (run_bind_of_ok (run_filterM_of_ok (g := σ.tree.isFile) ?_)).trans rfl
  intro p _
  rfl

theorem run_filesOf (h : σ.tree.isFile a ∨ σ.tree.isDirectory a) :
    (filesOf a : ExceptT Report (StateM Session) (List Path)).run σ =
      (.ok (σ.tree.scriptsAt a), σ) := by
  unfold filesOf Tree.scriptsAt
  refine (run_bind_of_ok (a := σ.tree.isFile a) rfl).trans ?_
  cases hf : σ.tree.isFile a with
  | true => rfl
  | false =>
    have hd : σ.tree.isDirectory a = true := h.resolve_left (by simp [hf])
    obtain ⟨names, hn⟩ := Tree.exists_children hd
    refine (run_bind_of_ok (a := σ.tree.isDirectory a) rfl).trans ?_
    rw [hd, hn]
    exact run_attempt_of_ok (run_scripts hn)

theorem run_parseFile (h : (σ.tree.read p).toOption.isSome) :
    (parseFile p : ExceptT Report (StateM Session) (Text × Json)).run σ =
      (.ok (σ.tree.document p), σ) := by
  unfold parseFile Tree.document
  cases hr : σ.tree.read p with
  | error e =>
    rw [hr] at h
    cases h
  | ok text =>
    exact run_bind_of_ok (run_attempt_of_ok (Prod.ext (congrArg Except.ok hr) rfl))

theorem run_parseFiles (h : ∀ a ∈ as, σ.tree.CanParse a) :
    (parseFiles as : ExceptT Report (StateM Session) Unit).run σ =
      (.ok (), { σ with printed := σ.printed ++ σ.tree.shown (σ.tree.scripts as) }) := by
  have hfiles : ∀ a ∈ as, (filesOf a : ExceptT Report (StateM Session) (List Path)).run σ =
      (.ok (σ.tree.scriptsAt a), σ) := fun a ha => run_filesOf (h a ha).there
  have hread : ∀ p ∈ arrange (σ.tree.scripts as), (parseFile p :
      ExceptT Report (StateM Session) (Text × Json)).run σ = (.ok (σ.tree.document p), σ) := by
    intro p hp
    exact run_parseFile (Tree.readable_of_mem_scripts h p (Search.arrange_subset _ hp))
  refine (run_bind_of_ok (run_mapM_of_ok hfiles)).trans ?_
  refine (run_bind_of_ok (a := (arrange (σ.tree.scripts as)).map σ.tree.document) ?_).trans rfl
  rw [← List.flatMap_def]
  exact run_mapM_of_ok hread

/-- The command shows what all scripts document that its arguments stand for. -/
theorem run_parse {args : List Text} {options : Options}
    (ha : Arguments.parse? args = some ⟨options, .parse as⟩) (h : ∀ a ∈ as, σ.tree.CanParse a) :
    (run args : StateM Session Exit) σ =
      (.success, { σ with printed := σ.printed ++ σ.tree.shown (σ.tree.scripts as) }) :=
  run_eq ha (run_parseFiles h)

/-- Whatever the order of the arguments and however often each of them is given, the command ends
well and shows the same scripts with the same documents, up to the spelling of their paths. The same
is printed if and only if each script is first spelled alike in both orders, so that no order
matters where no two paths with the same components are spelled differently. -/
theorem parse_in_any_order {args args' : List Text} {options options' : Options}
    {as bs : List Text} (ha : Arguments.parse? args = some ⟨options, .parse as⟩)
    (hb : Arguments.parse? args' = some ⟨options', .parse bs⟩) (hmem : ∀ a, a ∈ as ↔ a ∈ bs)
    (h : ∀ a ∈ as, σ.tree.CanParse a) :
    let ps := σ.tree.scripts as
    let qs := σ.tree.scripts bs
    (run args : StateM Session Exit) σ =
        (.success, { σ with printed := σ.printed ++ σ.tree.shown ps }) ∧
      (run args' : StateM Session Exit) σ =
        (.success, { σ with printed := σ.printed ++ σ.tree.shown qs }) ∧
      (∀ e ∈ σ.tree.documents ps, ∃ e' ∈ σ.tree.documents qs,
        Path.same e.1 e'.1 ∧ e.2 = e'.2) ∧
      (σ.tree.shown ps = σ.tree.shown qs ↔
        ∀ p ∈ ps, ps.find? (Path.same p) = qs.find? (Path.same p)) ∧
      ((∀ p ∈ ps, ∀ q ∈ ps, Path.same p q → p = q) → σ.tree.shown ps = σ.tree.shown qs) := by
  intro ps qs
  have hpq : ∀ p, p ∈ ps ↔ p ∈ qs := Tree.mem_scripts_congr hmem
  have h' : ∀ b ∈ bs, σ.tree.CanParse b := fun b hb => h b ((hmem b).2 hb)
  refine ⟨run_parse ha h, run_parse hb h', ?_, Tree.shown_eq_iff_of_mem hpq, ?_⟩
  · intro e he
    exact Tree.exists_mem_documents (fun p hp => (hpq p).1 hp) (Tree.readable_of_mem_scripts h') he
  · intro hone
    apply (Tree.shown_eq_iff_of_mem hpq).2
    intro p hp
    rw [Search.find?_same_eq_some hp (hone p hp),
      Search.find?_same_eq_some ((hpq p).1 hp) fun q hq => hone p hp q ((hpq q).2 hq)]

/-- A directory beside a file that is given twice in the other order. -/
theorem parse_in_any_order_of_directory :
    let tree : Tree := (({} : Tree).addFile "d/a.js" "// @method f\nf();".toUTF8 0).addFile "b.js"
      "// @event Shown\ng();".toUTF8 0
    let as : List Text := ["d", "b.js"]
    let bs : List Text := ["b.js", "d", "b.js"]
    (∀ a, a ∈ as ↔ a ∈ bs) ∧ (∀ a ∈ as, tree.CanParse a) ∧
      (run ("parse".toList :: as) : StateM Session Exit) { tree } =
        (run ("parse".toList :: bs) : StateM Session Exit) { tree } := by
  intro tree as bs
  have hsub : ∀ a ∈ as, a ∈ bs := by decide
  have hsup : ∀ b ∈ bs, b ∈ as := by decide
  have h : ∀ a ∈ as, tree.CanParse a := by decide +kernel
  have hone : ∀ p ∈ tree.scripts as, ∀ q ∈ tree.scripts as, Path.same p q → p = q := by
    decide +kernel
  have ha : Arguments.parse? ("parse".toList :: as) = some ⟨{}, .parse as⟩ := by decide +kernel
  have hb : Arguments.parse? ("parse".toList :: bs) = some ⟨{}, .parse bs⟩ := by decide +kernel
  obtain ⟨hrun, hrun', -, -, hshown⟩ := parse_in_any_order (σ := { tree }) ha hb
    (fun a => ⟨hsub a, hsup a⟩) h
  refine ⟨fun a => ⟨hsub a, hsup a⟩, h, ?_⟩
  rw [hrun, hrun', hshown hone]

/-- A file that is given in two spellings is shown under the first one. -/
theorem parse_depends_on_order_of_two_spellings :
    let tree : Tree := ({} : Tree).addFile "a/b.js" "// @method f\nf();".toUTF8 0
    let as : List Text := ["a//b.js", "a/b.js"]
    let bs : List Text := ["a/b.js", "a//b.js"]
    as.Perm bs ∧ (∀ a ∈ as, tree.isFile a ∧ (tree.read a).toOption.isSome) ∧
      ((run ("parse".toList :: as) : StateM Session Exit) { tree }).1 = .success ∧
      ((run ("parse".toList :: bs) : StateM Session Exit) { tree }).1 = .success ∧
      ((run ("parse".toList :: as) : StateM Session Exit) { tree }).2.printed ≠
        ((run ("parse".toList :: bs) : StateM Session Exit) { tree }).2.printed := by
  intro tree as bs
  have hperm : as.Perm bs := List.Perm.swap _ _ _
  have ha : Arguments.parse? ("parse".toList :: as) = some ⟨{}, .parse as⟩ := by decide +kernel
  have hb : Arguments.parse? ("parse".toList :: bs) = some ⟨{}, .parse bs⟩ := by decide +kernel
  have h : ∀ a ∈ as, tree.CanParse a := by decide +kernel
  have hrun := run_parse (σ := { tree }) ha h
  have hrun' := run_parse (σ := { tree }) hb fun b hb => h b (hperm.mem_iff.2 hb)
  have hne : tree.shown (tree.scripts as) ≠ tree.shown (tree.scripts bs) := by
    intro heq
    have hmem := Tree.mem_scripts_congr (t := tree) fun a => hperm.mem_iff (a := a)
    have hfind := (Tree.shown_eq_iff_of_mem hmem).1 heq "a/b.js".toList (by decide +kernel)
    exact absurd hfind (by decide +kernel)
  refine ⟨hperm, by decide +kernel, ?_⟩
  rw [hrun, hrun']
  exact ⟨rfl, rfl, hne⟩

end Command

end ApiBook
