import ApiBook.Proofs.Xml.Printer

/-! # Forests of elements

Elements nest to any depth, in each other and in elements of their own name. One without content is
written as a single tag that closes itself.
-/

namespace ApiBook.Xml

/-- A key of word characters, and a value that could not be taken for markup. -/
structure Attribute where
  key : Text
  value : Text
  ne_nil : key ≠ [] := by decide
  isWord : key.all Text.isWord = true := by decide
  plain : '"' ∉ value ∧ '<' ∉ value ∧ '>' ∉ value := by decide

theorem Attribute.isWord_of_mem (a : Attribute) : ∀ c ∈ a.key, Text.isWord c = true :=
  List.all_eq_true.1 a.isWord

abbrev ElementName := { name : Text // IsElementName name }

abbrev Plain := { text : Text // '<' ∉ text ∧ '>' ∉ text }

/-- Texts and elements side by side. Each is followed by the rest of the forest; the forest inside
an element stands in front of that. -/
inductive Forest where
  | nil
  | text (text : Plain) (rest : Forest)
  | empty (name : ElementName) (attributes : List Attribute) (rest : Forest)
  | element (name : ElementName) (attributes : List Attribute) (content rest : Forest)

def Attribute.print (a : Attribute) : Text := ' ' :: (a.key ++ '=' :: '"' :: (a.value ++ ['"']))

def printAttributes (as : List Attribute) : Text := as.flatMap Attribute.print

/-- An element at the top of a forest. It has no content if its tag closes itself. -/
structure Child where
  name : ElementName
  attributes : List Attribute
  content : Option Forest

namespace Forest

def print : Forest → Text
  | nil => []
  | text t rest => t.val ++ rest.print
  | empty name as rest => '<' :: (name.val ++ (printAttributes as ++ '/' :: '>' :: rest.print))
  | element name as content rest =>
    '<' :: (name.val ++ (printAttributes as ++
      '>' :: (content.print ++ (endTag name.val ++ rest.print))))

/-- The elements that are not inside of others. -/
def children : Forest → List Child
  | nil => []
  | text _ rest => rest.children
  | empty name as rest => ⟨name, as, none⟩ :: rest.children
  | element name as content rest => ⟨name, as, some content⟩ :: rest.children

/-- How many tags of a name close themselves although they have attributes. Their start looks like
that of an element with an end tag. -/
def unbalanced (name : Text) : Forest → Nat
  | nil => 0
  | text _ rest => rest.unbalanced name
  | empty n as rest => (if n.val = name ∧ as ≠ [] then 1 else 0) + rest.unbalanced name
  | element _ _ content rest => content.unbalanced name + rest.unbalanced name

end Forest

end ApiBook.Xml
