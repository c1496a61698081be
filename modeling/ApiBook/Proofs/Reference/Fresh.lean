import ApiBook.Reference
import ApiBook.Proofs.Cache.Lookup
import ApiBook.Proofs.Library.Assembly

/-! # References are never stale

Files come, change and go between the requests to a reference. It answers each request as if it
read all files anew, provided that the stamp of a file tells what is read from it.
-/

namespace ApiBook

/-- Whenever a file has the same stamp, the same is read from it. -/
def StampsDetermine (paths : List Path) (vs : List View) : Prop :=
  ∀ p ∈ paths, ∀ v ∈ vs, ∀ v' ∈ vs, v.stamp? p = v'.stamp? p → v.read p = v'.read p

instance (paths : List Path) (vs : List View) : Decidable (StampsDetermine paths vs) :=
  inferInstanceAs (Decidable (∀ p ∈ paths, ∀ v ∈ vs, ∀ v' ∈ vs,
    v.stamp? p = v'.stamp? p → v.read p = v'.read p))

namespace Reference

inductive Request where
  | documentation
  | index
  | typePage (name : Text)
  | markup
  | typeNames

inductive Answer where
  | library (result : Except Error Library)
  | text (result : Except Error Text)
  | names (result : Except Error (List Text))

/-- The answer that a request has if this is the library. -/
def Request.answer (s : Settings) (f : Format) (result : Except Error Library) : Request → Answer
  | documentation => .library result
  | index => .text (result.map fun l => f.index (listed s l))
  | typePage name => .text (result.bind (pageOf s f name))
  | markup => .text (result.map fun l => f.all l.types)
  | typeNames => .names (result.map fun l => (listed s l).map (·.name))

def serve (r : Reference) (v : View) : Request → Answer × Reference
  | .documentation => (r.documentation v).map (fun result => .library (result.map (·.value))) id
  | .index => (r.index v).map .text id
  | .typePage name => (r.typePage v name).map .text id
  | .markup => (r.markup v).map .text id
  | .typeNames => (r.typeNames v).map .names id

/-- From now on the files are as in a view, or a request is made. -/
inductive Event where
  | change (v : View)
  | request (q : Request)

/-- A request with the files at that moment and its answer. -/
structure Exchange where
  view : View
  request : Request
  answer : Answer

def views (v : View) : List Event → List View
  | [] => [v]
  | .change v' :: es => v :: views v' es
  | .request _ :: es => views v es

def exchanges (r : Reference) (v : View) : List Event → List Exchange
  | [] => []
  | .change v' :: es => r.exchanges v' es
  | .request q :: es => ⟨v, q, (r.serve v q).1⟩ :: (r.serve v q).2.exchanges v es

/-- All that is kept was built from views of these files. -/
def BuiltFrom (vs : List View) (r : Reference) : Prop :=
  ∀ k b, r.cache.find? k = some b → ∃ v ∈ vs,
    CacheKey.of v.stamp? r.settings.backing = k ∧ Library.build r.settings v = .ok b.value

variable {r : Reference} {v : View} {vs : List View} {es : List Event}

/-! ## One request -/

theorem documentation_of_some {b : Built Library}
    (h : r.cache.find? (.of v.stamp? r.settings.backing) = some b) :
    r.documentation v = (.ok b, r) := by
  rw [documentation, Cache.getOrBuild_of_some h]

theorem documentation_of_none (h : r.cache.find? (.of v.stamp? r.settings.backing) = none) :
    r.documentation v =
      ((r.cache.record (.of v.stamp? r.settings.backing) (Library.build r.settings v)).1,
        { r with cache :=
          (r.cache.record (.of v.stamp? r.settings.backing) (Library.build r.settings v)).2 }) := by
  rw [documentation, Cache.getOrBuild_of_none h]

theorem documentation_fresh (hs : StampsDetermine r.settings.backing vs) (hr : r.BuiltFrom vs)
    (hv : v ∈ vs) : (r.documentation v).1.map (·.value) = Library.build r.settings v := by
  cases h : r.cache.find? (.of v.stamp? r.settings.backing) with
  | some b =>
    -- `v'` shows each file with the stamp that it has now.
    obtain ⟨v', hv', hk, hb⟩ := hr _ b h
    have hread : ∀ p ∈ r.settings.backing, v.read p = v'.read p := by
      intro p hp
      have hstamp := List.map_inj_left.1 hk p hp
      exact hs p hp v hv v' hv' (Prod.mk.inj hstamp).2.symm
    rw [documentation_of_some h, Library.build_congr hread, hb]
    rfl
  | none =>
    rw [documentation_of_none h]
    cases Library.build r.settings v <;> rfl

theorem BuiltFrom.documentation (hr : r.BuiltFrom vs) (hv : v ∈ vs) :
    (r.documentation v).2.BuiltFrom vs := by
  cases h : r.cache.find? (.of v.stamp? r.settings.backing) with
  | some b => rwa [documentation_of_some h]
  | none =>
    rw [documentation_of_none h]
    intro k b hk
    rcases Cache.find?_of_find?_record hk with hk | ⟨rfl, hb⟩
    · exact hr k b hk
    · exact ⟨v, hv, rfl, hb⟩

theorem serve_eq (r : Reference) (v : View) (q : Request) :
    r.serve v q =
      (q.answer r.settings r.format ((r.documentation v).1.map (·.value)),
        (r.documentation v).2) := by
  rcases hd : r.documentation v with ⟨e | b, r'⟩ <;>
    cases q <;> simp only [serve, index, typePage, markup, typeNames, answer, hd] <;> rfl

/-! ## Runs -/

theorem mem_views : v ∈ views v es := by
  induction es with
  | nil => exact List.mem_singleton_self v
  | cons e es ih =>
    cases e with
    | change v' => exact List.mem_cons_self
    | request q => exact ih

theorem exchanges_fresh (hs : StampsDetermine r.settings.backing vs) (hr : r.BuiltFrom vs)
    (hvs : views v es ⊆ vs) : ∀ x ∈ r.exchanges v es,
      x.answer = x.request.answer r.settings r.format (Library.build r.settings x.view) := by
  -- `vs` stays the views of the whole run, so what was built early is still covered later on.
  induction es generalizing r v with
  | nil => exact fun x hx => absurd hx List.not_mem_nil
  | cons e es ih =>
    cases e with
    | change v' => exact ih hs hr (List.subset_of_cons_subset hvs)
    | request q =>
      have hv : v ∈ vs := hvs mem_views
      rw [exchanges, serve_eq, documentation_fresh hs hr hv]
      refine List.forall_mem_cons.2 ⟨rfl, ?_⟩
      exact ih hs (hr.documentation hv) hvs

/-- Through every run a new reference answers each request from the files at that moment, as far as
the stamps of the files behind it tell what is read from them. -/
theorem answers_fresh (s : Settings) (f : Format) (v : View) (es : List Event)
    (h : StampsDetermine s.backing (views v es)) :
    ∀ x ∈ ({ settings := s, format := f } : Reference).exchanges v es,
      x.answer = x.request.answer s f (Library.build s x.view) := by
  refine exchanges_fresh h ?_ (List.Subset.refl _)
  intro k b hk
  cases hk

/-- A script comes, is touched while the XML file is away, and goes when that is back. -/
theorem answers_fresh_of_edits :
    let s : Settings := { xml := "api.xml", scripts := [("Box", "box")] }
    let xml : Sighting :=
      ⟨"api.xml", .ok "<member name=\"T:AjaxControlToolkit.Box\"></member>", some (.chosen 1)⟩
    let script (number : Nat) : Sighting :=
      ⟨"box.js", .ok "// @method open", some (.chosen number)⟩
    let v : View := .ofSightings [xml]
    let es : List Event :=
      [.request .documentation, .change (.ofSightings [xml, script 2]), .request .documentation,
        .change (.ofSightings [script 3]), .request .markup, .change v, .request (.typePage "Box")]
    StampsDetermine s.backing (views v es) ∧
      ∀ x ∈ ({ settings := s, format := .markdown } : Reference).exchanges v es,
        x.answer = x.request.answer s .markdown (Library.build s x.view) := by
  intro s xml script v es
  have h : StampsDetermine s.backing (views v es) := by decide
  exact ⟨h, answers_fresh s .markdown v es h⟩

end Reference

end ApiBook
