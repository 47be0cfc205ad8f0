import SchemaDecl.Json.Reader
import SchemaDecl.Logging
import SchemaDecl.Source.Address
import SchemaDecl.Source.FileTree

/-!
# Loading documents

A schema export is a JSON document in a file, at an address or on standard input. What is loaded comes
with the request that was made and with the log.
-/

namespace SchemaDecl

structure Document where
  source : String
  data : Json

inductive Reply
  | response (status : Int) (body : String) (contentType : String)
  | timeout
  | noConnection (reason : String)
  /-- An error of the protocol without a response. -/
  | refused
  | failed (reason : String)

structure Request where
  address : String
  timeout : Json

namespace Loading

inductive Fault
  | nothingGiven
  | bothGiven
  /-- A path for which cannot be said whether there is a file. -/
  | unreachable (path : FilePath) (fault : PathFault)
  | missing (path : FilePath)
  | unreadable (path : FilePath) (fault : PathFault)
  | notText (fault : Utf8.Fault)
  | tooManyDigits (error : Json.ReadError)
  | malformedFile (path : FilePath) (error : Json.ReadError)
  | malformedInput (error : Json.ReadError)
  | badHost (fault : Host.Fault)
  | incompleteAddress (address : String)
  | timeout (address : String)
  | noConnection (address reason : String)
  | badStatus (address : String) (status? : Option Int)
  | malformedResponse (address : String) (error : Json.ReadError)
  | failedRequest (address reason : String)

namespace Fault

def message : Fault → String
  | nothingGiven => "Either file_path or url must be provided"
  | bothGiven => "Cannot specify both file_path and url"
  | unreachable path fault => fault.message path
  | missing path => "File not found: " ++ path.text
  | unreadable path fault => "Error reading file " ++ path.text ++ ": " ++ fault.message path
  | notText fault => fault.message
  | tooManyDigits error => error.message
  | malformedFile path error => "Invalid JSON in file " ++ path.text ++ ": " ++ error.message
  | malformedInput error => "Invalid JSON on standard input: " ++ error.message
  | badHost fault => fault.message
  | incompleteAddress address => "Invalid URL: " ++ address
  | timeout address => "Request timeout for URL: " ++ address
  | noConnection address _ => "Connection error for URL: " ++ address
  | badStatus address status? =>
    "HTTP error " ++ (status?.map toString).getD "unknown" ++ " for URL: " ++ address
  | malformedResponse address error => "Invalid JSON response from URL " ++ address ++ ": " ++ error.message
  | failedRequest address reason => "Request error for URL " ++ address ++ ": " ++ reason

/-- What is logged of a fault, if anything: its message, or more than that. -/
def logged? : Fault → Option String
  | nothingGiven => some "Neither file_path nor url provided"
  | bothGiven => some "Both file_path and url provided"
  | incompleteAddress address => some ("Invalid URL format: " ++ address)
  | noConnection address reason => some ("Connection error for URL " ++ address ++ ": " ++ reason)
  | unreachable _ _ | notText _ | tooManyDigits _ | badHost _ => none
  | fault => some fault.message

/-- The fault of a JSON text that cannot be read; `malformed` where it breaks the grammar. -/
def ofReading (malformed : Json.ReadError → Fault) (error : Json.ReadError) : Fault :=
  if error.fault.isLimit then tooManyDigits error else malformed error

end Fault

def readJson (malformed : Json.ReadError → Fault) (text : String) : Except Fault Json :=
  (Json.read text).mapError (Fault.ofReading malformed)

structure Outcome where
  result : Except Fault Document
  requests : List Request := []
  log : List LogRecord := []

/-- The outcome with the fault, if any, at the end of the log. -/
def Outcome.ofResult (result : Except Fault Document) (requests : List Request) (log : List LogRecord) :
    Outcome :=
  let more := match result with
    | .ok _ => []
    | .error fault => (fault.logged?.map fun text => ⟨.error, text⟩).toList
  ⟨result, requests, log ++ more⟩

def readFile (tree : FileTree) (path : FilePath) : Except Fault Document := do
  let bytes ← (tree.read path).mapError (.unreadable path)
  let text ← (Utf8.decodeLines bytes).mapError .notText
  let data ← readJson (.malformedFile path) text
  return ⟨path.text, data⟩

/-- Loads a file. One whose name does not end as that of a JSON file is read with a warning. -/
def fromFile (tree : FileTree) (path : FilePath) : Outcome :=
  match tree.has path with
  | .error fault => .ofResult (.error (.unreachable path fault)) [] []
  | .ok false => .ofResult (.error (.missing path)) [] []
  | .ok true =>
    let warnings := if path.isJson then []
      else [⟨.warning, "File does not have .json extension: " ++ path.text⟩]
    .ofResult (readFile tree path) [] warnings

def fromReply (address : String) (reply : Reply) : Except Fault Document × List LogRecord :=
  match reply with
  | .timeout => (.error (.timeout address), [])
  | .noConnection reason => (.error (.noConnection address reason), [])
  | .refused => (.error (.badStatus address none), [])
  | .failed reason => (.error (.failedRequest address reason), [])
  | .response status body contentType =>
    if 400 ≤ status ∧ status < 600 then (.error (.badStatus address (some status)), [])
    else
      let contentType := Text.lower contentType
      let result := readJson (.malformedResponse address) body
      let warnings :=
        if (contentType.splitOn "application/json").length > 1 || address.endsWith ".json" then []
        else [⟨.warning, "URL " ++ address ++ " does not have JSON content type: " ++ contentType⟩]
      (result.map fun data => ⟨address, data⟩, warnings)

/-- The seconds after which a request is given up. -/
def patience : Int := 30

/-- Loads what an address replies. No request is made to an address without a scheme and a host. -/
def fromAddress (address : String) (timeout : Json) (reply : Reply) : Outcome :=
  match Address.read address with
  | .error fault => .ofResult (.error (.badHost fault)) [] []
  | .ok parts =>
    if parts.isComplete then
      let (result, warnings) := fromReply address reply
      .ofResult result [⟨address, timeout⟩] warnings
    else .ofResult (.error (.incompleteAddress address)) [] []

def fromInput (text : String) : Outcome :=
  .ofResult ((readJson .malformedInput text).map fun data => ⟨"<stdin>", data⟩) [] []

def fromEither (tree : FileTree) (path? : Option FilePath) (address? : Option String) (timeout : Json)
    (reply : Reply) : Outcome :=
  match path?, address? with
  | none, none => .ofResult (.error .nothingGiven) [] []
  | some _, some _ => .ofResult (.error .bothGiven) [] []
  | some path, none => fromFile tree path
  | none, some address => fromAddress address timeout reply

end Loading

end SchemaDecl
