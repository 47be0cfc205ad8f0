import SchemaDecl.Schema.Basic

/-!
# Structural warnings

What is worth a warning before any declaration is made: two records with one uid, a record without
fields, and a top-level global field that refers to nothing in the input.
-/

namespace SchemaDecl

def isAmong (value : Json) (keys : List Json) : Bool := keys.any value.sameKey

inductive Warning
  | duplicate (uid : Json)
  | noFields (uid : Json)
  | unknownTarget (record field target : Json)

def Warning.message : Warning → String
  | duplicate uid => "Duplicate schema uid '" ++ uid.display ++ "'"
  | noFields uid => "Schema '" ++ uid.display ++ "' has no fields"
  | unknownTarget record field target =>
    "Global field " ++ record.display ++ "." ++ field.display ++ " references '" ++ target.display ++
      "' which is not in the input"

def checkField (record : Json) (known : List Json) (field : Field) : Except Fault (List Warning) :=
  match field with
  | ⟨attrs, none, _⟩ =>
    if attrs.kind = .globalField then do
      let targets ← attrs.targets
      let targets ← targets.mapM asKey
      if targets.any (isAmong · known) then return []
      else return [.unknownTarget record attrs.uid attrs.target]
    else .ok []
  | _ => .ok []

/-- The warnings about one record; `seen` holds the uids of those before. -/
def checkRecord (known seen : List Json) (r : Record) : Except Fault (List Warning) := do
  let duplicate := if isAmong r.uid seen then [Warning.duplicate r.uid] else []
  let empty := if r.fields.isEmpty then [Warning.noFields r.uid] else []
  let fields ← r.fields.mapM (checkField r.uid known)
  return duplicate ++ empty ++ fields.flatten

def checkFrom (known seen : List Json) : List Record → Except Fault (List Warning)
  | [] => .ok []
  | r :: rest => do
    let warnings ← checkRecord known seen r
    let others ← checkFrom known (seen ++ [r.uid]) rest
    return warnings ++ others

def checkRecords (records : List Record) : Except Fault (List Warning) := do
  let known ← records.mapM fun r => asKey r.uid
  checkFrom known [] records

end SchemaDecl
