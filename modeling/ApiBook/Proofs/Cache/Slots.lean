import Mathlib.Data.List.Induction
import Mathlib.Logic.Function.Basic
import ApiBook.Proofs.Cache.Lookup

/-! # Caches as slots

A cache answers as if it had one slot for each list of files, which holds the key and the value of
the last build of these files that succeeded. A call that asks for this key takes the value from
the slot, and any other call builds once.
-/

namespace ApiBook.Cache

variable {α ε : Type}

/-- A call: its key, and what building gives if it comes to that. -/
structure Call (ε α : Type) where
  key : CacheKey
  outcome : Except ε α

/-- What a call answers, and how often it built. -/
structure Reply (ε α : Type) where
  result : Except ε (Built α)
  runs : Nat

/-- A build that counts its runs. -/
def Call.build (q : Call ε α) : StateM Nat (Except ε α) := do
  modify (· + 1)
  return q.outcome

def Reply.built? (r : Reply ε α) : Option (Built α) :=
  if r.runs = 0 then none else r.result.toOption

abbrev History (ε α : Type) := List (Call ε α × Reply ε α)

/-- The history of some calls and the state that they lead to. -/
def serve {σ : Type} (call : σ → Call ε α → Reply ε α × σ) (start : σ) (qs : List (Call ε α)) :
    History ε α × σ :=
  qs.foldl (fun (h, s) q => (h ++ [(q, (call s q).1)], (call s q).2)) ([], start)

/-- The value that a call built from some files, with its key. -/
def builtFrom? (files : List (List Path.Component)) (p : Call ε α × Reply ε α) :
    Option (CacheKey × Built α) :=
  if p.1.key.files = files then p.2.built?.map (p.1.key, ·) else none

/-- The last build of some files that succeeded: its key and what it gave. -/
def lastBuild? (files : List (List Path.Component)) (h : History ε α) :
    Option (CacheKey × Built α) :=
  h.reverse.findSome? (builtFrom? files)

def call (c : Cache α) (q : Call ε α) : Reply ε α × Cache α :=
  let ((result, c), runs) := (c.getOrBuildM q.key fun _ => q.build).run 0
  (⟨result, runs⟩, c)

/-- One slot for each list of files, and the number of builds. -/
structure Slots (α : Type) where
  slot : List (List Path.Component) → Option (CacheKey × Built α) := fun _ => none
  builds : Nat := 0

namespace Slots

/-- What a slot holds, if it holds it for this very key. -/
def find? (s : Slots α) (k : CacheKey) : Option (Built α) :=
  (s.slot k.files).bind fun (k', b) => if k' = k then some b else none

theorem find?_eq_some_iff {s : Slots α} {k : CacheKey} {b : Built α} :
    s.find? k = some b ↔ s.slot k.files = some (k, b) := by
  rw [find?, Option.bind_eq_some_iff]
  constructor
  · rintro ⟨⟨k', b'⟩, hs, hb⟩
    obtain ⟨rfl, rfl⟩ : k' = k ∧ b' = b := by simpa using hb
    exact hs
  · intro hs
    exact ⟨(k, b), hs, if_pos rfl⟩

def record (s : Slots α) (k : CacheKey) : Except ε α → Except ε (Built α) × Slots α
  | .error e => (.error e, { s with builds := s.builds + 1 })
  | .ok value =>
    let b : Built α := ⟨s.builds + 1, value⟩
    (.ok b, ⟨Function.update s.slot k.files (some (k, b)), s.builds + 1⟩)

def call (s : Slots α) (q : Call ε α) : Reply ε α × Slots α :=
  match s.find? q.key with
  | some b => (⟨.ok b, 0⟩, s)
  | none => (⟨(s.record q.key q.outcome).1, 1⟩, (s.record q.key q.outcome).2)

end Slots

/-! ## One call -/

variable {c : Cache α} {q : Call ε α} {b : Built α}

theorem call_of_some (h : c.find? q.key = some b) : c.call q = (⟨.ok b, 0⟩, c) := by
  rw [call, getOrBuildM_of_some h]
  rfl

theorem call_of_none (h : c.find? q.key = none) : c.call q =
    (⟨(c.record q.key q.outcome).1, 1⟩, (c.record q.key q.outcome).2) := by
  rw [call, getOrBuildM_of_none h]
  rfl

/-- The slots say what the cache keeps for every key. -/
structure Refines (c : Cache α) (s : Slots α) : Prop where
  find?_eq : ∀ k, c.find? k = s.find? k
  builds_eq : c.builds = s.builds
  distinct : c.DistinctKeys

theorem refines_empty : Refines ({} : Cache α) {} := ⟨fun _ => rfl, rfl, distinctKeys_empty⟩

theorem Refines.record {s : Slots α} (h : c.Refines s) (k : CacheKey) (r : Except ε α) :
    (c.record k r).1 = (s.record k r).1 ∧ (c.record k r).2.Refines (s.record k r).2 := by
  cases r with
  | error e =>
    refine ⟨rfl, fun k' => ?_, congrArg (· + 1) h.builds_eq, h.distinct.record _⟩
    exact (find?_record_error e).trans (h.find?_eq k')
  | ok a =>
    refine ⟨?_, fun k' => ?_, congrArg (· + 1) h.builds_eq, h.distinct.record _⟩
    · simp only [Cache.record, Slots.record, h.builds_eq]
    · rw [find?_record_ok, h.find?_eq, h.builds_eq]
      simp only [Slots.record, Slots.find?, Function.update_apply]
      by_cases hf : k'.files = k.files
      · by_cases hk : k' = k
        · simp [hk]
        · simp [hk, hf, Ne.symm hk]
      · have hk : k' ≠ k := fun hk => hf (hk ▸ rfl)
        simp [hk, hf]

theorem Refines.call {s : Slots α} (h : c.Refines s) (q : Call ε α) :
    (c.call q).1 = (s.call q).1 ∧ (c.call q).2.Refines (s.call q).2 := by
  cases hs : s.find? q.key with
  | some b =>
    rw [call_of_some ((h.find?_eq q.key).trans hs), Slots.call, hs]
    exact ⟨rfl, h⟩
  | none =>
    rw [call_of_none ((h.find?_eq q.key).trans hs), Slots.call, hs]
    obtain ⟨hr, hc⟩ := h.record q.key q.outcome
    exact ⟨by rw [hr], hc⟩

theorem Refines.nodup_files {s : Slots α} (h : c.Refines s) :
    ((c.entries.filter (·.2.isSome)).map (·.1.files)).Nodup := by
  have hslot : ∀ e ∈ c.entries.filter (·.2.isSome),
      s.slot e.1.files = e.2.map (e.1, ·) := by
    rintro ⟨k, o⟩ he
    obtain ⟨hmem, ho⟩ := List.mem_filter.1 he
    obtain ⟨b, rfl⟩ := Option.isSome_iff_exists.1 ho
    exact Slots.find?_eq_some_iff.1 ((h.find?_eq k).symm.trans (h.distinct.find?_of_mem hmem))
  refine List.Nodup.map_on (fun e he e' he' hf => ?_) ((List.Nodup.of_map _ h.distinct).filter _)
  have heq := (hslot e he).symm.trans ((congrArg s.slot hf).trans (hslot e' he'))
  obtain ⟨b, hb⟩ := Option.isSome_iff_exists.1 (List.mem_filter.1 he).2
  obtain ⟨b', hb'⟩ := Option.isSome_iff_exists.1 (List.mem_filter.1 he').2
  rw [hb, hb', Option.map_some, Option.map_some, Option.some.injEq, Prod.mk.injEq] at heq
  exact Prod.ext heq.1 (by rw [hb, hb', heq.2])

/-! ## Runs -/

section Runs

variable {σ : Type} {step : σ → Call ε α → Reply ε α × σ} {start : σ} {qs : List (Call ε α)}
  {files : List (List Path.Component)} {h : History ε α} {q : Call ε α}

theorem serve_concat : serve step start (qs ++ [q]) =
    ((serve step start qs).1 ++ [(q, (step (serve step start qs).2 q).1)],
      (step (serve step start qs).2 q).2) := by
  rw [serve, List.foldl_append]
  rfl

@[simp] theorem lastBuild?_concat {p : Call ε α × Reply ε α} : lastBuild? files (h ++ [p]) =
    (builtFrom? files p).or (lastBuild? files h) := by
  rw [lastBuild?, List.reverse_concat, List.findSome?_cons]
  cases builtFrom? files p <;> rfl

/-- After all calls the history is that of the slots, and the slots still say what is kept. -/
theorem serve_refines (qs : List (Call ε α)) :
    (serve call ({} : Cache α) qs).1 = (serve Slots.call {} qs).1 ∧
      (serve call ({} : Cache α) qs).2.Refines (serve Slots.call {} qs).2 := by
  induction qs using List.reverseRecOn with
  | nil => exact ⟨rfl, refines_empty⟩
  | append_singleton qs q ih =>
    obtain ⟨hr, hc⟩ := ih.2.call q
    rw [serve_concat, serve_concat]
    exact ⟨by rw [ih.1, hr], hc⟩

/-- A slot holds the last build of its files that succeeded. -/
theorem slot_serve (qs : List (Call ε α)) (files : List (List Path.Component)) :
    (serve Slots.call ({} : Slots α) qs).2.slot files =
      lastBuild? files (serve Slots.call ({} : Slots α) qs).1 := by
  induction qs using List.reverseRecOn with
  | nil => rfl
  | append_singleton qs q ih =>
    rw [serve_concat, lastBuild?_concat, ← ih]
    generalize (serve Slots.call ({} : Slots α) qs).2 = s
    rw [Slots.call]
    cases hs : s.find? q.key with
    | some b => simp [builtFrom?, Reply.built?]
    | none =>
      cases hq : q.outcome with
      | error e => simp [Slots.record, builtFrom?, Reply.built?, Except.toOption]
      | ok a =>
        by_cases hf : files = q.key.files
        · simp [Slots.record, builtFrom?, Reply.built?, Except.toOption, hf]
        · simp [Slots.record, builtFrom?, hf, Ne.symm hf]

/-- The number of builds is the number of calls that built. -/
theorem builds_serve (qs : List (Call ε α)) : (serve Slots.call ({} : Slots α) qs).2.builds =
    (serve Slots.call ({} : Slots α) qs).1.countP (·.2.runs ≠ 0) := by
  induction qs using List.reverseRecOn with
  | nil => rfl
  | append_singleton qs q ih =>
    rw [serve_concat, List.countP_append, ← ih]
    generalize (serve Slots.call ({} : Slots α) qs).2 = s
    rw [Slots.call]
    cases hs : s.find? q.key with
    | some b => simp
    | none => cases hq : q.outcome <;> simp [Slots.record]

/-- Through every run a cache answers as its slots do. A call finds its key exactly when the last
build of its files that succeeded had this key; it then answers with what that build gave and
neither builds nor changes anything. Any other call builds once. If that fails, the failure is
answered and what is kept stays; if it succeeds, the value takes the place of all that was kept of
these files. -/
theorem refines_slots (qs : List (Call ε α)) :
    let history := (serve call ({} : Cache α) qs).1
    let c := (serve call ({} : Cache α) qs).2
    history = (serve Slots.call {} qs).1 ∧
    c.builds = history.countP (·.2.runs ≠ 0) ∧
    ((c.entries.filter (·.2.isSome)).map (·.1.files)).Nodup ∧
    ∀ q : Call ε α,
      (∀ b, lastBuild? q.key.files history = some (q.key, b) → c.call q = (⟨.ok b, 0⟩, c)) ∧
      ((∀ b, lastBuild? q.key.files history ≠ some (q.key, b)) →
        (c.call q).1.runs = 1 ∧
        (∀ e, q.outcome = .error e →
          (c.call q).1.result = .error e ∧ ∀ k, (c.call q).2.find? k = c.find? k) ∧
        ∀ a, q.outcome = .ok a →
          (c.call q).1.result = .ok ⟨c.builds + 1, a⟩ ∧
          (c.call q).2.entries.filter (·.1.files = q.key.files) =
            [(q.key, some ⟨c.builds + 1, a⟩)] ∧
          ∀ k, k.files ≠ q.key.files → (c.call q).2.find? k = c.find? k) := by
  intro history c
  obtain ⟨hh, hc⟩ := serve_refines qs
  have hfind : ∀ k b, c.find? k = some b ↔ lastBuild? k.files history = some (k, b) := by
    intro k b
    rw [hc.find?_eq, Slots.find?_eq_some_iff, slot_serve, ← hh]
  refine ⟨hh, ?_, hc.nodup_files, fun q => ⟨fun b hb => ?_, fun hq => ?_⟩⟩
  · rw [hc.builds_eq, builds_serve, ← hh]
  · exact call_of_some ((hfind _ _).2 hb)
  · have hn : c.find? q.key = none :=
      Option.eq_none_iff_forall_ne_some.2 fun b hb => hq b ((hfind _ _).1 hb)
    rw [call_of_none hn]
    refine ⟨rfl, fun e he => ?_, fun a ha => ?_⟩
    · rw [he]
      exact ⟨rfl, fun k => find?_record_error e⟩
    · rw [ha]
      refine ⟨rfl, hc.distinct.filter_record_ok (ε := ε), fun k hf => ?_⟩
      have hk : k ≠ q.key := fun hk => hf (congrArg CacheKey.files hk)
      rw [find?_record_ok, if_neg hk, if_neg hf]

end Runs

end ApiBook.Cache
