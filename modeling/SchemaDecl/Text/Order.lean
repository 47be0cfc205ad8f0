/-!
# Order of texts

Texts are listed in the order of their code points.
-/

namespace SchemaDecl.Text

def sorted (texts : List String) : List String := texts.mergeSort fun a b => !(b < a)

@[simp] theorem mem_sorted {texts : List String} {s : String} : s ∈ sorted texts ↔ s ∈ texts := by
  simp [sorted]

end SchemaDecl.Text
