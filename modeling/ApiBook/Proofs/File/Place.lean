import ApiBook.Except
import ApiBook.Proofs.File.Kind
import ApiBook.Proofs.File.Path

/-! # Where paths lead

A path is followed from names to names. Each step only asks what is where it has come to, so two
trees that agree on the kinds of all places agree on where every path leads and what is read there.
-/

namespace ApiBook

/-! ## Spots and names -/

namespace Spot

/-- The entry behind each name on the way up is the one that was left last. -/
def Below (root : Node) : Option Node → List (Text × Node) → Prop
  | node, [] => node = some root
  | node, (name, dir) :: above => node = dir.entry? name ∧ Below root (some dir) above

/-- Follows one piece of a path from names. -/
def follow (kinds : List Text → Option Kind) (names : List Text) (piece : Text) :
    Except FileError (List Text) :=
  match kinds names with
  | none => .error .notFound
  | some (.file _) => .error .notDirectory
  | some .directory =>
    if piece = [] ∨ piece = "." then .ok names
    else if piece = ".." then .ok names.dropLast
    else if maxName < (String.ofList piece).utf8ByteSize then .error .nameTooLong
    else .ok (names ++ [piece])

variable {root dir : Node} {node : Option Node} {above : List (Text × Node)} {s s' : Spot}
  {piece name : Text}

@[simp] theorem names_cons :
    names ⟨node, (name, dir) :: above⟩ = names ⟨some dir, above⟩ ++ [name] := by
  simp [names]

theorem Below.node_eq (h : Below root node above) : node = root.at? (names ⟨node, above⟩) := by
  induction above generalizing node with
  | nil => exact h
  | cons e above ih =>
    obtain ⟨name, dir⟩ := e
    obtain ⟨rfl, h⟩ := h
    rw [names_cons, Node.at?_append, ← ih h, Option.bind_some, Node.at?]
    cases dir.entry? name <;> rfl

theorem Below.kind?_names (h : Below root s.node s.above) :
    root.kind? s.names = s.node.map Node.kind := by
  rw [Node.kind?, ← h.node_eq]

theorem Below.step (h : Below root s.node s.above) (piece : Text) :
    (s.step piece).map names = follow root.kind? s.names piece ∧
      ∀ s', s.step piece = .ok s' → Below root s'.node s'.above := by
  rw [follow, h.kind?_names]
  obtain ⟨node, above⟩ := s
  rcases node with _ | ⟨bytes, stamp⟩ | ⟨stamp, entries⟩
  · refine ⟨rfl, fun s' hs => ?_⟩
    cases hs
  · refine ⟨rfl, fun s' hs => ?_⟩
    cases hs
  · simp only [Spot.step, Option.map_some, Node.kind]
    split
    · exact ⟨rfl, fun s' hs => Except.ok.inj hs ▸ h⟩
    split
    · cases above with
      | nil => exact ⟨rfl, fun s' hs => Except.ok.inj hs ▸ h⟩
      | cons e above =>
        refine ⟨?_, fun s' hs => Except.ok.inj hs ▸ h.2⟩
        rw [names_cons, List.dropLast_concat]
        rfl
    split
    · refine ⟨rfl, fun s' hs => ?_⟩
      cases hs
    · refine ⟨?_, fun s' hs => ?_⟩
      · rw [← names_cons]
        rfl
      · obtain rfl := Except.ok.inj hs
        exact ⟨rfl, h⟩

/-- Following pieces from a spot below the root is following them from its names. -/
theorem Below.steps (h : Below root s.node s.above) (pieces : List Text) :
    (pieces.foldlM Spot.step s).map names = pieces.foldlM (follow root.kind?) s.names ∧
      ∀ s', pieces.foldlM Spot.step s = .ok s' → Below root s'.node s'.above := by
  induction pieces generalizing s with
  | nil => exact ⟨rfl, fun s' hs => Except.ok.inj hs ▸ h⟩
  | cons piece pieces ih =>
    obtain ⟨hnames, hbelow⟩ := h.step piece
    rw [List.foldlM_cons, List.foldlM_cons, ← hnames]
    cases hs : s.step piece with
    | error e => exact ⟨rfl, nofun⟩
    | ok s' => exact ih (hbelow s' hs)

end Spot

namespace Tree

/-- What is where names lead. -/
def kind? (t : Tree) (names : List Text) : Option Kind := t.root.kind? names

/-- The names of a path, whether or not something is there. -/
def place (t : Tree) (p : Path) : Except FileError (List Text) := (t.spot p).map Spot.names

def startNames (p : Path) : List Text := if p.isAbsolute then [] else [[]]

/-- Why a path leads nowhere in every tree, if there is a reason. -/
def refusal? (p : Path) : Option FileError :=
  if p.contains (Char.ofNat 0) then some .zeroInName
  else if p = [] then some .notFound
  else if maxPath < (String.ofList p).utf8ByteSize then some .nameTooLong
  else none

variable {t : Tree} {p : Path}

theorem spot_eq : t.spot p = match refusal? p with
    | some e => .error e
    | none => p.pieces.foldlM Spot.step (t.start p) := by
  unfold spot refusal?
  split
  · rfl
  split
  · rfl
  split <;> rfl

theorem below_start : Spot.Below t.root (t.start p).node (t.start p).above := by
  unfold start
  split
  · rfl
  · exact ⟨rfl, rfl⟩

@[simp] theorem names_start : (t.start p).names = startNames p := by
  unfold start startNames
  split <;> rfl

theorem place_eq : t.place p = match refusal? p with
    | some e => .error e
    | none => p.pieces.foldlM (Spot.follow t.kind?) (startNames p) := by
  rw [place, spot_eq]
  cases refusal? p with
  | some e => rfl
  | none => exact names_start ▸ (below_start.steps p.pieces).1

theorem refusal?_eq_none_iff : refusal? p = none ↔
    Char.ofNat 0 ∉ p ∧ p ≠ [] ∧ (String.ofList p).utf8ByteSize ≤ maxPath := by
  unfold refusal?
  split
  · rename_i h
    simp [List.contains_iff_mem.1 h]
  rename_i h
  rw [List.contains_iff_mem] at h
  split
  · rename_i hn
    simp [hn]
  split
  · rename_i hl
    simp [Nat.not_le.2 hl]
  · rename_i hn hl
    simp [h, hn, Nat.not_lt.1 hl]

theorem place_eq_ok_iff {names : List Text} : t.place p = .ok names ↔
    refusal? p = none ∧ p.pieces.foldlM (Spot.follow t.kind?) (startNames p) = .ok names := by
  rw [place_eq]
  cases refusal? p <;> simp

theorem below_spot {s : Spot} (h : t.spot p = .ok s) : Spot.Below t.root s.node s.above := by
  rw [spot_eq] at h
  cases hr : refusal? p with
  | some e =>
    rw [hr] at h
    cases h
  | none =>
    rw [hr] at h
    exact (below_start.steps p.pieces).2 s h

theorem place_of_spot {s : Spot} (h : t.spot p = .ok s) :
    t.place p = .ok s.names ∧ t.kind? s.names = s.node.map Node.kind :=
  ⟨by rw [place, h]; rfl, (below_spot h).kind?_names⟩

theorem spot_of_place {names : List Text} (h : t.place p = .ok names) :
    ∃ s, t.spot p = .ok s ∧ s.names = names ∧ t.kind? names = s.node.map Node.kind := by
  rw [place] at h
  cases hs : t.spot p with
  | error e =>
    rw [hs] at h
    cases h
  | ok s =>
    rw [hs] at h
    obtain rfl := Except.ok.inj h
    exact ⟨s, rfl, rfl, (place_of_spot hs).2⟩

def textAt : Option Kind → Except FileError Text
  | none => .error .notFound
  | some .directory => .error .isDirectory
  | some (.file bytes) =>
    match String.fromUTF8? bytes with
    | some s => .ok s.toList
    | none => .error .notText

theorem read_eq : t.read p = (t.place p).bind fun names => textAt (t.kind? names) := by
  rw [read, lookup]
  cases hs : t.spot p with
  | error e =>
    rw [place, hs]
    rfl
  | ok s =>
    obtain ⟨hp, hk⟩ := place_of_spot hs
    rw [hp]
    change _ = textAt (t.kind? s.names)
    rw [hk]
    obtain ⟨node, above⟩ := s
    match node with
    | none => rfl
    | some (.file _ _) => rfl
    | some (.directory _ _) => rfl

theorem isDirectory_iff :
    t.isDirectory p ↔ ∃ names, t.place p = .ok names ∧ t.kind? names = some .directory := by
  rw [isDirectory, lookup]
  cases hs : t.spot p with
  | error e => simp [place, hs, Except.map]
  | ok s =>
    obtain ⟨hp, hk⟩ := place_of_spot hs
    simp only [hp, Except.ok.injEq, exists_eq_left', hk]
    match s.node with
    | none => simp
    | some (.file _ _) => simp [Node.kind]
    | some (.directory _ _) => simp [Node.kind]

/-! ## The directory of a place -/

theorem kind?_dropLast {names : List Text} (h : t.kind? names = some .directory) :
    t.kind? names.dropLast = some .directory := by
  rcases List.eq_nil_or_concat names with rfl | ⟨dir, name, rfl⟩
  · exact h
  · rw [List.concat_eq_append] at h ⊢
    rw [List.dropLast_concat]
    exact Node.kind?_of_kind?_append h

/-- Either a directory or something in a directory. -/
def InDirectory (t : Tree) (names : List Text) : Prop :=
  t.kind? names = some .directory ∨
    ∃ dir name, names = dir ++ [name] ∧ t.kind? dir = some .directory

theorem kind?_of_follow {names names' : List Text} {piece : Text}
    (h : Spot.follow t.kind? names piece = .ok names') : t.kind? names = some .directory := by
  unfold Spot.follow at h
  split at h
  · cases h
  · cases h
  · assumption

theorem inDirectory_follow {names names' : List Text} {piece : Text}
    (h : Spot.follow t.kind? names piece = .ok names') : t.InDirectory names' := by
  unfold Spot.follow at h
  split at h
  · cases h
  · cases h
  · rename_i hd
    split at h
    · exact .inl (Except.ok.inj h ▸ hd)
    split at h
    · exact .inl (Except.ok.inj h ▸ kind?_dropLast hd)
    split at h
    · cases h
    · exact .inr ⟨names, piece, (Except.ok.inj h).symm, hd⟩

theorem follow_nil {names : List Text} (h : t.kind? names = some .directory) :
    Spot.follow t.kind? names [] = .ok names := by
  rw [Spot.follow, h]
  rfl

theorem foldlM_follow_nils {names : List Text} (h : t.kind? names = some .directory) (n : Nat) :
    (List.replicate n []).foldlM (Spot.follow t.kind?) names = .ok names := by
  induction n with
  | zero => rfl
  | succ n ih =>
    rw [List.replicate_succ, List.foldlM_cons, follow_nil h]
    exact ih

theorem inDirectory_place {names : List Text} (h : t.place p = .ok names) :
    t.InDirectory names := by
  obtain ⟨-, h⟩ := place_eq_ok_iff.1 h
  rw [← List.dropLast_concat_getLast (Path.pieces_ne_nil p), List.foldlM_append] at h
  obtain ⟨above, -, h⟩ := bind_eq_ok_iff.1 h
  rw [List.foldlM_cons] at h
  obtain ⟨names', hf, h⟩ := bind_eq_ok_iff.1 h
  exact Except.ok.inj h ▸ inDirectory_follow hf

end Tree

end ApiBook
