import ApiBook.Proofs.Command.Session
import ApiBook.Proofs.Page.Index
import ApiBook.Proofs.Reference.Listed

/-! # The index and the pages

The listed names, the pages that are found and the files that a command writes for all listed types
agree.
-/

namespace ApiBook

open Reference (listed)

/-- The page of each type with the name of its file. -/
def pageFiles (f : Format) (ts : List TypeDoc) : List (Text × Text) :=
  ts.map fun t => (t.name ++ "." ++ f.extension, f.typePage t)

namespace Command

variable {s : Settings} {f : Format} {l : Library} {r : Reference} {σ : Session} {t₀ u w : Tree}
  {t : TypeDoc} {ts : List TypeDoc} {options : Options} {d : Path}

theorem pageFiles_eq_nil_iff : pageFiles f ts = [] ↔ ts = [] := List.map_eq_nil_iff

theorem run_ask_of_keeps {α : Type} {a : α} {g : Library → Except Error α} (report : Error → Report)
    (question : Reference → View → Except Error α × Reference)
    (hq : ∀ v, question r v = r.answer v g) (hg : g l = .ok a) (hr : r.Keeps l)
    (hb : Library.build r.settings t₀.view = .ok l)
    (hread : ∀ p ∈ r.settings.backing, σ.tree.read p = t₀.read p) :
    ∃ r', r'.settings = r.settings ∧ r'.format = r.format ∧ r'.Keeps l ∧
      (ask report r question : ExceptT Report (StateM Session) (α × Reference)).run σ =
        (.ok (a, r'), σ) := by
  have hb' : Library.build r.settings
      (.ofSightings (r.settings.backing.map σ.tree.sighting)) = .ok l := by
    rw [← hb]
    exact Library.build_congr fun p hp => (View.read_ofSightings hp).trans (hread p hp)
  obtain ⟨r', ha, hs, hf, hk⟩ := hr.answer hb' g
  exact ⟨r', hs, hf, hk, run_ask (by rw [hq, ha, hg])⟩

/-- Pages are written in turn as long as this changes nothing behind the library. -/
theorem run_typePages (hd : options.output = some d) (hb : Library.build s t₀.view = .ok l)
    (hs : r.settings = s) (hf : r.format = f) (hr : r.Keeps l)
    (hts : ∀ t ∈ ts, l.get? (s.fullName t.name) = some t)
    (hread : ts ≠ [] → ∀ p ∈ s.backing, σ.tree.read p = t₀.read p)
    (hu : σ.tree.makeDirectories d (d.length + 1) = .ok u) (hc : u.CanWrite d (pageFiles f ts))
    (hkept : ∀ fs, fs <+: pageFiles f ts → fs ≠ pageFiles f ts → ∀ t', u.writeAll d fs = .ok t' →
      ∀ p ∈ s.backing, t'.read p = t₀.read p)
    (hw : u.writeAll d (pageFiles f ts) = .ok w) :
    (typePages options (ts.map (·.name)) r : ExceptT Report (StateM Session) Unit).run σ =
      (.ok (), { σ with tree := if ts = [] then σ.tree else w }) := by
  induction ts generalizing r σ u with
  | nil => rfl
  | cons t ts ih =>
    subst hs hf
    obtain ⟨ht, hts⟩ := List.forall_mem_cons.1 hts
    have hg : Reference.pageOf r.settings r.format t.name l = .ok (r.format.typePage t) := by
      rw [Reference.pageOf, ht]
    obtain ⟨r', hs', hf', hr', hask⟩ :=
      run_ask_of_keeps (.within ("failed to render " ++ t.name)) (·.typePage · t.name)
        (fun _ => rfl) hg hr hb (hread (List.cons_ne_nil t ts))
    obtain ⟨dir, hp, hdir⟩ := Tree.isDirectory_iff.1 hc.isDirectory
    obtain ⟨u', hu', -, -, -, hc'⟩ := hc.write hp hdir
    have hwrite : ∀ fs, u.writeAll d
        ((t.name ++ "." ++ r.format.extension, r.format.typePage t) :: fs) = u'.writeAll d fs := by
      intro fs
      rw [Tree.writeAll, hu']
      rfl
    have hemit : (emit options r'.format t.name (r.format.typePage t) :
        ExceptT Report (StateM Session) Unit).run σ = (.ok (), { σ with tree := u' }) :=
      run_emit hd hu (hf' ▸ hu')
    have hkept' : ∀ fs, fs <+: pageFiles r.format ts → fs ≠ pageFiles r.format ts →
        ∀ t', u'.writeAll d fs = .ok t' → ∀ p ∈ r.settings.backing, t'.read p = t₀.read p :=
      fun fs hfs hne t' ht' => hkept _ (List.cons_prefix_cons.2 ⟨rfl, hfs⟩)
        (fun he => hne (List.cons.inj he).2) t' ((hwrite fs).trans ht')
    -- The directory has been made for the first page, so the others start from `u'` and leave it as
    -- it is until they are written.
    have hrest := ih (σ := { σ with tree := u' }) hs' hf' hr' hts
      (fun hne => hkept' [] List.nil_prefix (fun he => hne (pageFiles_eq_nil_iff.1 he.symm)) u' rfl)
      (Tree.makeDirectories_of_isDirectory hc'.isDirectory d.length) hc' hkept'
      ((hwrite _).symm.trans hw)
    rw [List.map_cons, typePages]
    refine (run_bind_of_ok hask).trans ((run_bind_of_ok hemit).trans (hrest.trans ?_))
    rw [if_neg (List.cons_ne_nil t ts)]
    split
    · rename_i hnil
      subst hnil
      obtain rfl := Except.ok.inj ((hwrite []).symm.trans hw)
      rfl
    · rfl

theorem nodup_pageFiles (hs : s.scope ≠ []) (hl : l.WellFormed) :
    ((pageFiles f (listed s l)).map Prod.fst).Nodup := by
  have h := Reference.names_sorted hs hl
  rw [Reference.names, List.pairwise_map] at h
  rw [pageFiles, List.map_map]
  refine List.pairwise_map.2 (h.imp fun {t t'} hlt he => ?_)
  have he : t.name = t'.name := by simpa using he
  exact List.lt_irrefl _ (he ▸ hlt)

theorem run_type_all {args given names : List Text} {r' : Reference} {o : Except Report Unit}
    {σ' : Session} (ha : Arguments.parse? args = some ⟨options, .type given true⟩)
    (hr : Reference.start σ.tree.view options.format options.config = .ok r)
    (hask : (ask Report.ofError r Reference.typeNames :
      ExceptT Report (StateM Session) (List Text × Reference)).run σ = (.ok (names, r'), σ))
    (h : (typePages options names r' : ExceptT Report (StateM Session) Unit).run σ = (o, σ')) :
    (run args : StateM Session Exit) σ = (exitOf o, σ') :=
  run_eq ha ((run_bind_of_ok (run_start hr)).trans ((run_bind_of_ok hask).trans h))

/-- All listed pages are written, and the command ends well. -/
theorem run_typeAll {args given : List Text} (hs : s.scope ≠ [])
    (hb : Library.build s σ.tree.view = .ok l)
    (ha : Arguments.parse? args = some ⟨options, .type given true⟩) (hd : options.output = some d)
    (hr : Reference.start σ.tree.view options.format options.config =
      .ok { settings := s, format := f })
    (h : σ.tree.Accepts d (pageFiles f (listed s l)) s.backing u) :
    ∃ w, (run args : StateM Session Exit) σ = (.success, { σ with tree := w }) ∧
      σ.tree.Shows d (pageFiles f (listed s l)) w := by
  have hl := Library.WellFormed.of_build hb
  obtain ⟨r', hs', hf', hk', hask⟩ := run_ask_of_keeps Report.ofError Reference.typeNames
    (fun _ => rfl) rfl (Reference.keeps_start s f l) hb fun _ _ => rfl
  have hts : ∀ t ∈ listed s l, l.get? (s.fullName t.name) = some t := fun t ht =>
    ((Reference.mem_listed_iff hs hl).1 ht).1
  by_cases hnil : listed s l = []
  · refine ⟨σ.tree, ?_, ?_⟩
    · rw [hnil] at hask
      exact run_type_all ha hr hask rfl
    · rw [pageFiles_eq_nil_iff.2 hnil]
      exact ⟨nofun, List.nodup_nil, fun _ _ => rfl⟩
  · have hc := h.canWrite (mt pageFiles_eq_nil_iff.1 hnil)
    obtain ⟨w, hw, hshows⟩ := hc.writeAll (.of_makeDirectories h.made) (nodup_pageFiles hs hl)
    refine ⟨w, ?_, hshows⟩
    have hrun := run_typePages hd hb hs' hf' hk' hts (fun _ _ _ => rfl) h.made hc h.kept hw
    rw [if_neg hnil] at hrun
    exact run_type_all ha hr hask hrun

end Command

/-- The listed names ascend, and they are the names without a dot that the settings list and under
whose full names there is a type. A page is found under a name exactly if there is such a type; it
is the page of this type. The links of the index lead to the files with these pages, which the
command for all types writes and nothing else, if the output directory accepts them. -/
theorem index_and_pages_agree (s : Settings) (f : Format) (v : View) (l : Library)
    (hs : s.scope ≠ []) (hb : Library.build s v = .ok l) :
    let r : Reference := { settings := s, format := f }
    let ts := listed s l
    let ns := ts.map (·.name)
    ((r.typeNames v).1 = .ok ns ∧ (ns.Pairwise fun a b => a.byteList < b.byteList) ∧
      ∀ n, n ∈ ns ↔ '.' ∉ n ∧ (l.get? (s.fullName n)).isSome ∧ (s.index = [] ∨ n ∈ s.index)) ∧
    (∀ t ∈ ts, l.get? (s.fullName t.name) = some t ∧
      (r.typePage v t.name).1 = .ok (f.typePage t)) ∧
    (∀ n, ((∃ page, (r.typePage v n).1 = .ok page) ↔ (l.get? (s.fullName n)).isSome) ∧
      (l.get? (s.fullName n) = none → (r.typePage v n).1 = .error
        (if n ∈ s.scripts.map Prod.fst then .notDocumented (s.fullName n)
          else .unknownType (s.fullName n)))) ∧
    (f = .markdown → ∃ links : List Page.Markdown.Link,
      (r.index v).1 = .ok ("# Reference\n\n" ++ links.flatMap (·.print)) ∧
      links.map (·.target) = (pageFiles f ts).map Prod.fst ∧ ∀ e ∈ links, '\n' ∉ e.remark) ∧
    ∀ args options given d σ u, σ.tree.view = v →
      Arguments.parse? args = some ⟨options, .type given true⟩ → options.output = some d →
      Reference.start v options.format options.config = .ok r →
      σ.tree.Accepts d (pageFiles f ts) s.backing u →
      ∃ w, (Command.run args : StateM Session Exit) σ = (.success, { σ with tree := w }) ∧
        σ.tree.Shows d (pageFiles f ts) w := by
  intro r ts ns
  have hl := Library.WellFormed.of_build hb
  have hanswer : ∀ {α : Type} (g : Library → Except Error α), (r.answer v g).1 = g l := by
    intro α g
    obtain ⟨r', ha, -⟩ := (Reference.keeps_start s f l).answer hb g
    exact congrArg Prod.fst ha
  have hpage : ∀ n, (r.typePage v n).1 = Reference.pageOf s f n l := fun n => hanswer _
  refine ⟨⟨hanswer _, Reference.names_sorted hs hl, fun n => Reference.mem_names_iff hs hl⟩,
    fun t ht => ?_, fun n => ?_, fun hf => ?_, fun args options given d σ u hv ha hd hr h => ?_⟩
  · have hget := ((Reference.mem_listed_iff hs hl).1 ht).1
    refine ⟨hget, ?_⟩
    rw [hpage, Reference.pageOf, hget]
  · rw [hpage, Reference.pageOf_eq]
    cases l.get? (s.fullName n) <;> simp
  · subst hf
    refine ⟨Page.Markdown.links ts, (hanswer _).trans (congrArg _ (Page.Markdown.index_eq ts)),
      ?_, fun e he => ?_⟩
    · rw [Page.Markdown.links, pageFiles, List.map_map, List.map_map]
      rfl
    · obtain ⟨t, -, rfl⟩ := List.mem_map.1 he
      exact Page.Markdown.not_mem_remark t
  · subst hv
    exact Command.run_typeAll hs hb ha hd hr h

/-- A new directory beside the files behind the library. -/
theorem index_and_pages_agree_of_slider :
    let s : Settings := { scope := "My.Box", xml := "api.xml", scripts := [("Dialog", "dialog")] }
    let t : TypeDoc :=
      { fullName := "My.Box.Slider", name := "Slider", scope := "My.Box",
        members := [{ name := "Width", origin := .xml, detail := .property none }] }
    let l : Library := { entries := [("My.Box.Slider", t)] }
    let tree : Tree := (({} : Tree).addFile "api.xml"
      "<member name=\"P:My.Box.Slider.Width\"/>".toUTF8 1).addFile "reference.toml"
        "namespace = 'My.Box'\nxml = 'api.xml'\nscripts.Dialog = 'dialog'".toUTF8 1
    let files : List (Text × Text) := [("Slider.md", Page.Markdown.typePage t)]
    s.scope ≠ [] ∧ Library.build s tree.view = .ok l ∧
      Reference.start tree.view "markdown" "reference.toml" =
        .ok { settings := s, format := .markdown } ∧
      tree.Accepts "out" files s.backing (tree.addDirectory "out") ∧
      ∃ w, (Command.run ["type", "--all", "-o", "out"] : StateM Session Exit) { tree } =
        (.success, { tree := w }) ∧ tree.Shows "out" files w := by
  intro s t l tree files
  have hs : s.scope ≠ [] := by decide
  have hb : Library.build s tree.view = .ok l := by decide +kernel
  have hload : Settings.load tree.view "reference.toml" = .ok s := by decide +kernel
  have hr : Reference.start tree.view "markdown" "reference.toml" =
      .ok { settings := s, format := .markdown } := by
    rw [Reference.start, hload]
    rfl
  have hmade := Tree.makeDirectories_eq_ok_addDirectory (t := tree) (p := "out") (by decide +kernel)
  have hacc : tree.Accepts "out" files s.backing (tree.addDirectory "out") := by
    have hc : (tree.addDirectory "out").CanWrite "out" files :=
      ⟨by decide +kernel, by decide +kernel, by decide +kernel, by decide +kernel⟩
    have hkept : ∀ p ∈ s.backing, tree.place p = .ok [[], p] ∧
        (tree.addDirectory "out").kind? [[], p] = tree.kind? [[], p] ∧
        ∀ f ∈ files, (tree.addDirectory "out").place (Path.join "out" f.1) ≠ .ok [[], p] := by
      decide +kernel
    refine ⟨by decide, hmade, hc.isFileName, hc.short, hc.free, fun fs hfs _ w hw p hp => ?_⟩
    obtain ⟨hplace, hkind, hother⟩ := hkept p hp
    exact hc.read_writeAll (.of_makeDirectories hmade) (by decide) hplace hkind hother hfs hw
  refine ⟨hs, hb, hr, hacc, ?_⟩
  have ha : Arguments.parse? ["type", "--all", "-o", "out"] =
      some ⟨{ output := some "out".toList }, .type [] true⟩ := by decide +kernel
  exact (index_and_pages_agree s .markdown tree.view l hs hb).2.2.2.2 _ _ _ _ { tree } _ rfl ha rfl
    hr hacc

/-- Not every directory accepts the pages: the page of one type can take the place of the file that
documents the next one, and there can be a file instead of the directory. -/
theorem type_all_can_fail :
    let s : Settings := { scope := "N", xml := "A.md" }
    let a : TypeDoc := { fullName := "N.A", name := "A", scope := "N" }
    let b : TypeDoc := { fullName := "N.B", name := "B", scope := "N" }
    let l : Library := { entries := [("N.A", a), ("N.B", b)], sorted := by decide }
    let tree : Tree := (({} : Tree).addFile "A.md"
      "<member name=\"T:N.A\"></member><member name=\"T:N.B\"></member>".toUTF8 1).addFile
        "reference.toml" "namespace = 'N'\nxml = 'A.md'".toUTF8 1
    Reference.start tree.view "markdown" "reference.toml" =
        .ok { settings := s, format := .markdown } ∧
      s.scope ≠ [] ∧ Library.build s tree.view = .ok l ∧ listed s l = [a, b] ∧
      ((Command.run ["type", "--all", "-o", "."] : StateM Session Exit) { tree }).1 =
        .failure ⟨"failed to render B", ["type not found: N.B"]⟩ ∧
      ((Command.run ["type", "--all", "-o", "A.md"] : StateM Session Exit) { tree }).1 =
        .failure ⟨"failed to create output directory: A.md",
          [FileError.message .alreadyExists]⟩ := by
  intro s a b l tree
  let text : Text := "<member name=\"T:N.A\"></member><member name=\"T:N.B\"></member>"
  have hrecords : Xml.records text =
      [{ kind := .type, target := "N.A" }, { kind := .type, target := "N.B" }] := by
    have hm : Xml.members text =
        [{ kind := .type, target := "N.A" }, { kind := .type, target := "N.B" }] := by
      decide +kernel
    rw [Xml.records, hm]
    exact List.mergeSort_of_pairwise (by decide)
  have hb : Library.build s tree.view = .ok l := by
    refine Library.build_eq_ok_iff.2 ⟨text, by decide +kernel, ?_⟩
    rw [hrecords]
    decide +kernel
  have hl : listed s l = [a, b] := by decide +kernel
  have hload : Settings.load tree.view "reference.toml" = .ok s := by decide +kernel
  let r : Reference := { settings := s, format := .markdown }
  have hr : Reference.start tree.view "markdown" "reference.toml" = .ok r := by
    rw [Reference.start, hload]
    rfl
  let v : View := .ofSightings (s.backing.map tree.sighting)
  let r' : Reference :=
    { r with cache := (({} : Cache Library).record (.of v.stamp? s.backing)
      (.ok l : Except Error Library)).2 }
  have hnames : r.typeNames v = (.ok ["A", "B"], r') := by
    have hv : Library.build s v = .ok l :=
      (Library.build_congr fun p hp => View.read_ofSightings hp).trans hb
    rw [Reference.typeNames, Reference.answer, Reference.documentation_of_none rfl, hv]
    simp only [Cache.record]
    rw [hl]
    rfl
  have hrun : ∀ d report,
      Arguments.parse? ["type", "--all", "-o", d] =
        some ⟨{ output := some d }, .type [] true⟩ →
      ((Command.typePages { output := some d } ["A", "B"] r' :
        ExceptT Report (StateM Session) Unit).run { tree }).1 = .error report →
      ((Command.run ["type", "--all", "-o", d] : StateM Session Exit) { tree }).1 =
        .failure report := by
    intro d report ha h
    have h' := Command.run_type_all (σ := { tree }) ha hr (Command.run_ask hnames) (Prod.ext h rfl)
    rw [h']
    rfl
  exact ⟨hr, by decide, hb, hl, hrun _ _ (by decide +kernel) (by decide +kernel),
    hrun _ _ (by decide +kernel) (by decide +kernel)⟩

end ApiBook
