/-
  The shared chat history (`SharedHistoryStore`): turns appended as JSON lines, read back and
  cleared by conversation.
-/
import SmartHome.Lib.Current
import SmartHome.Lib.Js
import SmartHome.Lib.JsonNesting
import SmartHome.Lib.Utf8

namespace SmartHome.SharedHistory

open Verif

/-! ## Turns -/

/-- A JSON value that JavaScript takes for true. -/
def truthy : Json → Bool
  | .null => false
  | .bool b => b
  | .int n => n ≠ 0
  | .real => true
  | .str s => s ≠ ""
  | .arr _ | .obj _ => true

/-- The record that `appendTurn` writes. -/
structure Turn where
  id : String
  timestamp : String
  agent : Json
  conversationId : Json
  sessionId : Json
  status : Json
  prompt : Json
  reply : Json
  id_ne : id ≠ ""
  deriving DecidableEq

/-- The argument of `appendTurn`. -/
structure Request where
  id : Option String
  agent : Json
  conversationId : Json
  sessionId : Json
  status : Json
  prompt : Json
  reply : Json

/-- The record of a request; `uuid` is what `randomUUID` gives. -/
def Request.turn (r : Request) (uuid : {u : String // u ≠ ""}) (timestamp : String) : Turn :=
  let id : {u : String // u ≠ ""} := match r.id with
    | none => uuid
    | some i => if h : i ≠ "" then ⟨i, h⟩ else uuid
  { id := id.1
    timestamp := timestamp
    agent := r.agent
    conversationId := r.conversationId
    sessionId := if truthy r.sessionId then r.sessionId else .null
    status := r.status
    prompt := r.prompt
    reply := r.reply
    id_ne := id.2 }

def Turn.toJson (t : Turn) : Json :=
  .obj [("id", .str t.id), ("timestamp", .str t.timestamp), ("agent", t.agent),
    ("conversation_id", t.conversationId), ("session_id", t.sessionId), ("status", t.status),
    ("prompt", t.prompt), ("reply", t.reply)]

/-- `JSON.stringify(turn)` -/
def Turn.text (t : Turn) : List Char := t.toJson.render

/-! ## The file -/

/-- The bytes of `turns.jsonl`, if it exists. -/
abbrev File := Option (List UInt8)

/-- `appendTurn`, of whose bytes only the first `written` reach the file if a crash tears it. -/
def appendTurn (file : File) (t : Turn) (written : ℕ) : File :=
  some (file.getD [] ++ (utf8 (t.text ++ ['\n'])).take written)

/-- `contents.split(/\r?\n/)` -/
def splitLines : List Char → List (List Char)
  | [] => [[]]
  | '\r' :: '\n' :: cs => [] :: splitLines cs
  | '\n' :: cs => [] :: splitLines cs
  | c :: cs => match splitLines cs with
    | l :: ls => (c :: l) :: ls
    | [] => [[c]]

/-- `JSON.parse(line)`, if it does not throw; nor does a property of its value. -/
def parseLine (line : List Char) : Option Json := (Json.parse line).filter (· ≠ .null)

/-- `!name || turn[key] === name` -/
def selects (name : Option String) (key : String) (turn : Json) : Bool :=
  match name with
  | none => true
  | some n => n = "" || turn.get? key = some (.str n)

/-- The key of a turn in `indexesById`, unless `turn.id` is falsy.  An object is found under no
    key; the store writes strings only. -/
def indexKey (turn : Json) : Option Json :=
  match turn.get? "id" with
  | some (.arr _) | some (.obj _) | none => none
  | some v => if truthy v then some v else none

/-- `turns` and `indexesById` -/
structure Reader where
  turns : List Json
  indexesById : Json → Option ℕ

def Reader.empty : Reader := ⟨[], fun _ => none⟩

/-- A turn takes the place of the one with its id. -/
def Reader.add (r : Reader) (turn : Json) : Reader :=
  match indexKey turn with
  | none => { r with turns := r.turns ++ [turn] }
  | some id => match r.indexesById id with
    | some i => { r with turns := r.turns.set i turn }
    | none => ⟨r.turns ++ [turn], Function.update r.indexesById id (some r.turns.length)⟩

/-- One line of the file; a line that is no JSON is passed over. -/
def Reader.line (agent conversationId : Option String) (r : Reader) (line : List Char) : Reader :=
  if isBlank line then r
  else match parseLine line with
    | none => r
    | some turn =>
      if selects agent "agent" turn && selects conversationId "conversation_id" turn then r.add turn
      else r

/-- `turns.slice(-limit)` -/
def lastTurns (limit : ℕ) (turns : List Json) : List Json :=
  if limit = 0 then turns else turns.drop (turns.length - limit)

def readTurns (agent conversationId : Option String) (limit : ℕ) (file : File) : List Json :=
  match file with
  | none => []
  | some contents => lastTurns limit
      ((splitLines (decodeUtf8 contents)).foldl (Reader.line agent conversationId) Reader.empty).turns

/-- A line of the turns that `clearTurns` removes. -/
def cleared (agent conversationId : String) (line : List Char) : Bool :=
  match parseLine line with
  | none => false
  | some turn =>
    turn.get? "agent" = some (.str agent) && turn.get? "conversation_id" = some (.str conversationId)

/-- `clearTurns`: the number of removed turns and the file that replaces the old one. -/
def clearTurns (agent conversationId : String) (file : File) : ℕ × File :=
  if agent = "" ∨ conversationId = "" then (0, file)
  else match file with
    | none => (0, none)
    | some contents =>
      let lines := (splitLines (decodeUtf8 contents)).filter fun line => !isBlank line
      let retained := lines.filter fun line => !cleared agent conversationId line
      ((lines.filter (cleared agent conversationId)).length,
        some (utf8 (if retained = [] then [] else List.intercalate ['\n'] retained ++ ['\n'])))

/-! ## Runs -/

/-- What is done to the file; an append may be torn. -/
inductive Op where
  | append (turn : Turn) (written : ℕ)
  | clear (agent conversationId : String)

def Op.apply (file : File) : Op → File
  | .append t written => appendTurn file t written
  | .clear agent conversationId => (clearTurns agent conversationId file).2

/-- The file after a run from no file. -/
def run (ops : List Op) : File := ops.foldl Op.apply none

end SmartHome.SharedHistory
