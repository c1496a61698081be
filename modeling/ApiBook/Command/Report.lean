import ApiBook.Error
import ApiBook.Text.Number

/-! # Reports

The report of a failure gives its message and below it the messages of its causes, numbered when
there are several.
-/

namespace ApiBook

structure Report where
  message : Text
  causes : List Text := []
  deriving DecidableEq, Repr

namespace Report

def ofError (e : Error) : Report := ⟨e.message, e.chain.tail⟩

def within (message : Text) (e : Error) : Report := ⟨message, e.chain⟩

def indented (indent : Text) (s : Text) : Text :=
  s.flatMap fun c => if c = '\n' then c :: indent else [c]

/-- Numbers are right-aligned, and texts stand behind them. -/
def numbered (n : Nat) (s : Text) : Text :=
  let digits := Text.ofNat n
  List.replicate (5 - digits.length) ' ' ++ digits ++ ": " ++ indented (List.replicate 7 ' ') s

def causeLines : List Text → List Text
  | [cause] => [List.replicate 4 ' ' ++ indented (List.replicate 4 ' ') cause]
  | causes => causes.zipIdx.map fun (cause, n) => numbered n cause

def render (r : Report) : Text :=
  "Error: " ++ r.message ++
    (if r.causes = [] then []
      else (("\n\nCaused by:" ++ (causeLines r.causes).flatMap fun line => '\n' :: line) : Text))

end Report

end ApiBook
