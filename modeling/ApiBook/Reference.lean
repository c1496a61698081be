import ApiBook.Assembly
import ApiBook.Cache
import ApiBook.Page.Format

/-! # References

A reference answers requests for pages in one format. It keeps the library that it assembled as
long as none of the files behind it changes.
-/

namespace ApiBook

structure Reference where
  settings : Settings
  format : Format
  cache : Cache Library := {}

namespace Reference

def start (v : View) (formatName : Text) (path : Path) : Except Error Reference :=
  match Format.ofName? formatName with
  | none => .error (.unknownFormat formatName)
  | some format =>
    match Settings.load v path with
    | .error e => .error e
    | .ok settings => .ok { settings, format }

/-- The library as the files are now. -/
def documentation (r : Reference) (v : View) : Except Error (Built Library) × Reference :=
  let key := CacheKey.of v.stamp? r.settings.backing
  let (result, cache) := r.cache.getOrBuild key fun _ => Library.build r.settings v
  (result, { r with cache })

def listed (s : Settings) (l : Library) : List TypeDoc :=
  l.types.filter fun t => t.scope = s.scope ∧ (s.index = [] ∨ t.name ∈ s.index)

/-- The page of a type in a library, by simple name. -/
def pageOf (s : Settings) (format : Format) (name : Text) (l : Library) : Except Error Text :=
  match l.get? (s.fullName name) with
  | some t => .ok (format.typePage t)
  | none =>
    if (s.scriptPath? name).isSome then .error (.notDocumented (s.fullName name))
    else .error (.unknownType (s.fullName name))

def answer {α : Type} (r : Reference) (v : View) (f : Library → Except Error α) :
    Except Error α × Reference :=
  match r.documentation v with
  | (.error e, r) => (.error e, r)
  | (.ok b, r) => (f b.value, r)

def index (r : Reference) (v : View) : Except Error Text × Reference :=
  r.answer v fun l => .ok (r.format.index (listed r.settings l))

def typePage (r : Reference) (v : View) (name : Text) : Except Error Text × Reference :=
  r.answer v (pageOf r.settings r.format name)

def markup (r : Reference) (v : View) : Except Error Text × Reference :=
  r.answer v fun l => .ok (r.format.all l.types)

def typeNames (r : Reference) (v : View) : Except Error (List Text) × Reference :=
  r.answer v fun l => .ok ((listed r.settings l).map (·.name))

end Reference

end ApiBook
