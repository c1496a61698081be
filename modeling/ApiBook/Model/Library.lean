import ApiBook.Model.Record
import ApiBook.Model.TypeDoc
import ApiBook.Script.Document

/-! # Libraries

A library holds documented types under their full names, in the order of the names. It grows by XML
records, which create the types they need, and by script documents, which only extend types that
are there.
-/

namespace ApiBook

structure Library where
  entries : List (Text × TypeDoc) := []
  sorted : entries.Pairwise (·.1 < ·.1) := by simp
  deriving DecidableEq, Repr

namespace Library

def empty : Library := {}

def types (l : Library) : List TypeDoc := l.entries.map Prod.snd

def get? (l : Library) (fullName : Text) : Option TypeDoc :=
  (l.entries.find? (·.1 = fullName)).map Prod.snd

def find? (l : Library) (name : Text) : Option TypeDoc :=
  l.types.find? (·.name = name)

/-- Changes the type of a full name, which is created in its place if need be. -/
def updateEntries (fullName : Text) (f : TypeDoc → TypeDoc) :
    List (Text × TypeDoc) → List (Text × TypeDoc)
  | [] => [(fullName, f (TypeDoc.ofFullName fullName))]
  | (n, t) :: es =>
    if n = fullName then (n, f t) :: es
    else if fullName < n then (fullName, f (TypeDoc.ofFullName fullName)) :: (n, t) :: es
    else (n, t) :: updateEntries fullName f es

theorem fst_of_mem_updateEntries {fullName : Text} {f : TypeDoc → TypeDoc}
    {es : List (Text × TypeDoc)} {e : Text × TypeDoc} (h : e ∈ updateEntries fullName f es) :
    e.1 = fullName ∨ ∃ e' ∈ es, e'.1 = e.1 := by
  fun_induction updateEntries fullName f es <;> grind

theorem updateEntries_sorted {fullName : Text} {f : TypeDoc → TypeDoc}
    {es : List (Text × TypeDoc)} (h : es.Pairwise (·.1 < ·.1)) :
    (updateEntries fullName f es).Pairwise (·.1 < ·.1) := by
  induction es with
  | nil => simp [updateEntries]
  | cons e es ih =>
    obtain ⟨n, t⟩ := e
    obtain ⟨hn, hes⟩ := List.pairwise_cons.1 h
    rw [updateEntries]
    split
    · exact List.pairwise_cons.2 ⟨hn, hes⟩
    · split
      · rename_i hlt
        refine List.pairwise_cons.2 ⟨fun e he => ?_, h⟩
        rcases List.mem_cons.1 he with rfl | he
        · exact hlt
        · exact List.lt_trans hlt (hn e he)
      · rename_i hne hlt
        refine List.pairwise_cons.2 ⟨fun e he => ?_, ih hes⟩
        rcases fst_of_mem_updateEntries he with he | ⟨e', he', he⟩
        · exact he ▸ Text.lt_of_not_lt hlt hne
        · exact he ▸ hn e' he'

def update (fullName : Text) (f : TypeDoc → TypeDoc) (l : Library) : Library :=
  ⟨updateEntries fullName f l.entries, updateEntries_sorted l.sorted⟩

/-- Records of types fill the summary of the type. Records of members join their owner, which is
the target up to its last dot; overloads of a method thus share one member. -/
def add (l : Library) (r : Record) : Library :=
  match r.kind with
  | .scope | .unknown => l
  | .type => l.update r.target (TypeDoc.fillSummary r.summary)
  | .property | .field | .event | .method =>
    match Text.cutLast? '.' r.target with
    | none => l
    | some (owner, name) =>
      match r.toMember? name with
      | none => l
      | some m => l.update owner fun t => (t.join m).1

def addAll (l : Library) (rs : List Record) : Library := rs.foldl add l

/-- A type with a script document: documented fields stay, gaps are filled, new members come
last. -/
def mergeType (s : Script.Document) (t : TypeDoc) : TypeDoc × Outcome :=
  let t :=
    match s.classDoc with
    | some c => t.fillSummary c.summary
    | none => t
  t.joinAll s.members

def merge? (l : Library) (fullName : Text) (s : Script.Document) : Option (Library × Outcome) :=
  (l.get? fullName).map fun t =>
    let (t', o) := mergeType s t
    (l.update fullName fun _ => t', o)

/-- Appends a parameter to a member that has a parameter list, and gives the list. -/
def addParam (l : Library) (fullName memberName : Text) (p : Param) :
    Option (List Param) × Library :=
  match (l.get? fullName).bind fun t => (t.member? memberName).bind (·.detail.params?) with
  | none => (none, l)
  | some ps =>
    let extend (m : Member) : Member := { m with detail := m.detail.withParams (ps ++ [p]) }
    (some (ps ++ [p]), l.update fullName (TypeDoc.modifyMember memberName extend))

end Library

end ApiBook
