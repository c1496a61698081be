import ApiBook.Command.Run
import ApiBook.Proofs.File.Output

/-! # Commands in sessions

What the parts of a command do to a session: looking at files leaves it as it is, however many they
are, and emitting a page writes one file.
-/

namespace ApiBook

def Tree.sighting (t : Tree) (p : Path) : Sighting := ⟨p, t.read p, t.stamp? p⟩

theorem View.read_ofSightings {t : Tree} {paths : List Path} {p : Path} (h : p ∈ paths) :
    (View.ofSightings (paths.map t.sighting)).read p = t.read p := by
  have hf : ((paths.map t.sighting).find? (·.path = p)) = some (t.sighting p) := by
    induction paths with
    | nil => cases h
    | cons q paths ih =>
      by_cases hq : q = p
      · simp [Tree.sighting, hq]
      · rw [List.map_cons, List.find?_cons_of_neg (by simp [Tree.sighting, hq])]
        exact ih ((List.mem_cons.1 h).resolve_left (Ne.symm hq))
  rw [ofSightings]
  simp only [hf]
  rfl

namespace Command

variable {α β : Type} {x : ExceptT Report (StateM Session) α}
  {g : α → ExceptT Report (StateM Session) β} {a : α} {σ σ' : Session}

theorem run_bind_of_ok (h : x.run σ = (.ok a, σ')) : (x >>= g).run σ = (g a).run σ' := by
  change (ExceptT.bindCont g (x.run σ).1).run (x.run σ).2 = _
  rw [h]
  rfl

theorem run_mapM_of_ok {γ : Type} {f : γ → ExceptT Report (StateM Session) α} {g : γ → α}
    {cs : List γ} (h : ∀ c ∈ cs, (f c).run σ = (.ok (g c), σ)) :
    (cs.mapM f).run σ = (.ok (cs.map g), σ) := by
  induction cs with
  | nil => rfl
  | cons c cs ih =>
    obtain ⟨hc, hcs⟩ := List.forall_mem_cons.1 h
    rw [List.mapM_cons]
    refine (run_bind_of_ok hc).trans ?_
    exact (run_bind_of_ok (ih hcs)).trans rfl

theorem run_filterAuxM_of_ok {γ : Type} {f : γ → ExceptT Report (StateM Session) Bool}
    {g : γ → Bool} {cs : List γ} (h : ∀ c ∈ cs, (f c).run σ = (.ok (g c), σ)) (kept : List γ) :
    (cs.filterAuxM f kept).run σ = (.ok ((cs.filter g).reverse ++ kept), σ) := by
  induction cs generalizing kept with
  | nil => rfl
  | cons c cs ih =>
    obtain ⟨hc, hcs⟩ := List.forall_mem_cons.1 h
    refine (run_bind_of_ok hc).trans ((ih hcs _).trans ?_)
    cases hg : g c with
    | true => simp [hg]
    | false => simp [hg]

theorem run_filterM_of_ok {γ : Type} {f : γ → ExceptT Report (StateM Session) Bool} {g : γ → Bool}
    {cs : List γ} (h : ∀ c ∈ cs, (f c).run σ = (.ok (g c), σ)) :
    (cs.filterM f).run σ = (.ok (cs.filter g), σ) := by
  refine (run_bind_of_ok (run_filterAuxM_of_ok h [])).trans ?_
  rw [List.append_nil, List.reverse_reverse]
  rfl

theorem run_lookAt (paths : List Path) (σ : Session) :
    (lookAt paths : ExceptT Report (StateM Session) View).run σ =
      (.ok (.ofSightings (paths.map σ.tree.sighting)), σ) := by
  unfold lookAt
  refine (run_bind_of_ok (run_mapM_of_ok (g := σ.tree.sighting) ?_)).trans rfl
  intro p _
  rfl

theorem run_attempt_of_ok {message : Text}
    {x : ExceptT Report (StateM Session) (Except FileError α)}
    (h : x.run σ = (.ok (.ok a), σ')) : (attempt message x).run σ = (.ok a, σ') :=
  (run_bind_of_ok h).trans rfl

theorem run_ask {report : Error → Report} {r r' : Reference}
    {question : Reference → View → Except Error α × Reference}
    (h : question r (.ofSightings (r.settings.backing.map σ.tree.sighting)) = (.ok a, r')) :
    (ask report r question : ExceptT Report (StateM Session) (α × Reference)).run σ =
      (.ok (a, r'), σ) := by
  refine (run_bind_of_ok (run_lookAt _ σ)).trans ?_
  simp only [h]
  rfl

theorem run_change {f : Tree → Except FileError Tree} {t : Tree} (h : f σ.tree = .ok t) :
    (liftM (Session.change f) : ExceptT Report (StateM Session) (Except FileError Unit)).run σ =
      (.ok (.ok ()), { σ with tree := t }) := by
  change (Except.ok (Session.change f σ).1, (Session.change f σ).2) = _
  rw [Session.change, h]

theorem run_emit {options : Options} {f : Format} {name page : Text} {d : Path} {u w : Tree}
    (hd : options.output = some d) (hu : σ.tree.makeDirectories d (d.length + 1) = .ok u)
    (hw : u.write (d.join (name ++ "." ++ f.extension)) page.bytes = .ok w) :
    (emit options f name page : ExceptT Report (StateM Session) Unit).run σ =
      (.ok (), { σ with tree := w }) := by
  unfold emit
  simp only [hd]
  refine (run_bind_of_ok (run_attempt_of_ok (run_change hu))).trans ?_
  exact run_attempt_of_ok (run_change (σ := { σ with tree := u }) hw)

theorem start_congr {v : View} {t : Tree} {p : Path} (h : v.read p = t.read p) (name : Text) :
    Reference.start v name p = Reference.start t.view name p := by
  unfold Reference.start Settings.load
  rw [h]
  rfl

theorem run_start {options : Options} {r : Reference}
    (h : Reference.start σ.tree.view options.format options.config = .ok r) :
    (start options : ExceptT Report (StateM Session) Reference).run σ = (.ok r, σ) := by
  refine (run_bind_of_ok (run_lookAt _ σ)).trans ?_
  rw [start_congr (View.read_ofSightings (List.mem_singleton_self _)), h]
  rfl

def exitOf : Except Report Unit → Exit
  | .ok () => .success
  | .error report => .failure report

theorem run_eq {args : List Text} {i : Invocation} {o : Except Report Unit}
    (ha : Arguments.parse? args = some i)
    (h : (execute i : ExceptT Report (StateM Session) Unit).run σ = (o, σ')) :
    (run args : StateM Session Exit) σ = (exitOf o, σ') := by
  unfold run
  rw [ha]
  change (match ((execute i : ExceptT Report (StateM Session) Unit).run σ).1 with
    | .ok () => return .success
    | .error report => return .failure report : StateM Session Exit)
      ((execute i : ExceptT Report (StateM Session) Unit).run σ).2 = _
  rw [h]
  cases o <;> rfl

end Command

end ApiBook
