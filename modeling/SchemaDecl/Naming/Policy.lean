import SchemaDecl.Fault
import SchemaDecl.Json.Basic
import SchemaDecl.Text.Digit

/-!
# Usable identifiers

A name may not begin with a digit, whether it names a declaration or a member of an object type. Member
names come from documents, where they may be anything; an empty value names a member all the same.
-/

namespace SchemaDecl.Naming

def startsWithDigit (name : String) : Bool := name.toList.head?.any Text.isDigit

def isUsableName (name : String) : Bool := !startsWithDigit name

def isAllDigits (s : String) : Bool := s != "" && s.toList.all Text.isDigit

/-- Whether a value can name a member. A list is judged by its first item. -/
def isUsable (uid : Json) : Except Fault Bool :=
  if !uid.truthy then .ok true
  else match uid with
    | .text s => .ok (isUsableName s)
    | .list (.text s :: _) => .ok !(isAllDigits s)
    | .list (item :: _) => .error (.headNotText item.kindName)
    | .object _ => .error .headOfObject
    | uid => .error (.noHead uid.kindName)

theorem isUsable_text (s : String) : isUsable (.text s) = .ok (isUsableName s) := by
  by_cases h : s = ""
  · subst h; rfl
  · simp [isUsable, Json.truthy, h]

def digitReason : String := "TypeScript constraint: object keys cannot start with numbers"

end SchemaDecl.Naming
