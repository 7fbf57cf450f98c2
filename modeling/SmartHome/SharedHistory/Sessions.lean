/-
  The sessions of the chat bridge (`codex-options.js`, `history.js`, `server.js`): session keys,
  the queue of each key, and the clearing of a conversation.

  File writes succeed, and an identifier of a conversation that is sent is a text.  Messages to
  the CLI and its answers are left out but for what is stored of them.
-/
import SmartHome.Lib.Guard
import SmartHome.Lib.Machine
import SmartHome.Lib.Table
import SmartHome.SharedHistory.Recovery

namespace SmartHome.SharedHistory

open Verif

/-! ## Options of Codex -/

/-- `CODEX_MODELS` -/
def codexModels : List (String × List String) := [
  ("gpt-5.6-luna", ["low", "medium", "high", "xhigh", "max"]),
  ("gpt-5.6-terra", ["low", "medium", "high", "xhigh", "max", "ultra"]),
  ("gpt-5.6-sol", ["low", "medium", "high", "xhigh", "max", "ultra"])]

/-- A model, and an effort that it allows. -/
def Allowed (model effort : String) : Prop := ∃ row ∈ codexModels, row.1 = model ∧ effort ∈ row.2

instance (model effort : String) : Decidable (Allowed model effort) := by unfold Allowed; infer_instance

/-- Validated options. -/
structure CodexOptions where
  model : String
  reasoningEffort : String
  allowed : Allowed model reasoningEffort
  deriving DecidableEq

/-- `trim` -/
def trim (t : List Char) : List Char := ((t.dropWhile isJsSpace).reverse.dropWhile isJsSpace).reverse

def normalizeOptional : Json → Option String
  | .str s => if isBlank s.toList then none else some (String.ofList (trim s.toList))
  | _ => none

def validateCodexOptions (model reasoningEffort : Json) : Except String CodexOptions :=
  let normalizedModel := (normalizeOptional model).getD "gpt-5.6-luna"
  let normalizedReasoningEffort := (normalizeOptional reasoningEffort).getD "low"
  if normalizedModel ∉ codexModels.map Prod.fst then .error "unsupported Codex model"
  else if h : Allowed normalizedModel normalizedReasoningEffort then
    .ok ⟨normalizedModel, normalizedReasoningEffort, h⟩
  else .error "unsupported reasoning effort for selected model"

/-! ## Requests -/

inductive Agent where
  | claude
  | codex
  deriving DecidableEq

def Agent.name : Agent → String
  | claude => "claude"
  | codex => "codex"

def agentOf (name : String) : Option Agent := [Agent.claude, Agent.codex].find? fun a => a.name = name

/-- A request that was accepted; `{}` for the options of Claude. -/
structure Chat where
  agent : Agent
  conversationId : Option String
  options : Option CodexOptions
  conversation_ne : conversationId ≠ some ""
  options_codex : options.isSome = true ↔ agent = .codex
  deriving DecidableEq

/-- The body of a request. -/
structure Payload where
  message : Json
  displayMessage : Json
  conversationId : Option String
  agent : Json
  model : Json
  reasoningEffort : Json

def string? : Json → Option String
  | .str s => some s
  | _ => none

/-- What is sent as the prompt, where it is accepted. -/
def Payload.accept (p : Payload) : Except String (Chat × Json) := do
  let conversationId := p.conversationId.filter (· ≠ "")
  let hne : conversationId ≠ some "" := by simp [conversationId]
  let name := if truthy p.agent then p.agent else .str "claude"
  let _ ← orFail "missing message" ((string? p.message).filter (· ≠ ""))
  let agent ← orFail "unsupported agent" ((string? name).bind agentOf)
  let prompt := if (string? p.displayMessage).isSome then p.displayMessage else p.message
  match agent with
  | .claude => return (⟨.claude, conversationId, none, hne, by simp⟩, prompt)
  | .codex =>
    let options ← validateCodexOptions p.model p.reasoningEffort
    return (⟨.codex, conversationId, some options, hne, by simp⟩, prompt)

/-- `codexSessionKey`, which validates the options again. -/
def codexSessionKey (conversationId : Option String) (options : Option CodexOptions) :
    Except String (Option String) :=
  match conversationId with
  | none => .ok none
  | some c => do
    let o ← validateCodexOptions (options.elim .null fun o => .str o.model)
      (options.elim .null fun o => .str o.reasoningEffort)
    return some ("codex:" ++ c ++ ":model=" ++ o.model ++ ":reasoning=" ++ o.reasoningEffort)

def Chat.sessionKey (x : Chat) : Except String (Option String) :=
  match x.agent with
  | .codex => codexSessionKey x.conversationId x.options
  | .claude => .ok (x.conversationId.map fun c => "claude:" ++ c)

/-! ## The bridge -/

/-- A request under way.  It waits for the one before it in the queue of its key. -/
structure Ticket where
  id : ℕ
  chat : Chat
  key : Option String
  previous : Option ℕ
  turnId : String
  prompt : Json
  /-- The session was in conflict, and the CLI runs once more. -/
  retried : Bool

structure Bridge where
  file : File
  sessions : List (String × Json)
  /-- `sessionQueues`, each with the last request. -/
  queues : List (String × ℕ)
  pending : List Ticket
  next : ℕ

namespace Bridge

/-- `getSession` -/
def getSession (st : Bridge) (key : Option String) : Json :=
  match key.bind fun k => lookup Prod.fst k st.sessions with
  | some (_, sessionId) => if truthy sessionId then sessionId else .null
  | none => .null

/-- `setSession` -/
def setSession (st : Bridge) (key : Option String) (sessionId : Json) : Bridge :=
  match key with
  | none => st
  | some k => if truthy sessionId then { st with sessions := upsert Prod.fst (k, sessionId) st.sessions } else st

/-- `deleteSession` -/
def deleteSession (st : Bridge) (key : Option String) : Bridge :=
  match key with
  | none => st
  | some k => { st with sessions := remove Prod.fst k st.sessions }

/-- `recordTurn` -/
def recordTurn (st : Bridge) (turn : Turn) : Bridge :=
  { st with file := appendTurn st.file turn (utf8 (turn.text ++ ['\n'])).length }

/-- The turn of a request. -/
def turnOf (chat : Chat) (id : Option String) (uuid : {u : String // u ≠ ""}) (timestamp : String)
    (sessionId prompt reply : Json) (status : String) : Turn :=
  Request.turn ⟨id, .str chat.agent.name, chat.conversationId.elim .null .str, sessionId, .str status, prompt, reply⟩
    uuid timestamp

/-- A request arrives: its turn is recorded as pending, and it joins the queue of its key. -/
def arrive (st : Bridge) (chat : Chat) (key : Option String) (prompt : Json) (uuid : {u : String // u ≠ ""})
    (timestamp : String) : Bridge :=
  let turn := turnOf chat none uuid timestamp (st.getSession key) prompt (.str "") "pending"
  let previous := (key.bind fun k => lookup Prod.fst k st.queues).map Prod.snd
  { st.recordTurn turn with
    queues := key.elim st.queues fun k => upsert Prod.fst (k, st.next) st.queues
    pending := st.pending ++ [⟨st.next, chat, key, previous, turn.id, prompt, false⟩]
    next := st.next + 1 }

/-- The request is not waiting. -/
def Runs (st : Bridge) (t : Ticket) : Prop := ∀ p ∈ t.previous, ∀ s ∈ st.pending, s.id ≠ p

/-- How the CLI ends. -/
inductive Ending where
  /-- The session of the result, and what is recorded of it. -/
  | success (sessionId turnSession reply : Json)
  | failure (timedOut : Bool) (reply : Json)

/-- The session after the end. -/
def endSession (st : Bridge) (t : Ticket) : Ending → Bridge
  | .success sessionId _ _ => st.setSession t.key sessionId
  | .failure timedOut _ => if timedOut ∧ t.retried = false then st.deleteSession t.key else st

/-- The turn after the end. -/
def endTurn (st : Bridge) (t : Ticket) (uuid : {u : String // u ≠ ""}) (timestamp : String) : Ending → Turn
  | .success _ turnSession reply => turnOf t.chat (some t.turnId) uuid timestamp turnSession t.prompt reply "success"
  | .failure _ reply => turnOf t.chat (some t.turnId) uuid timestamp (st.getSession t.key) t.prompt reply "error"

/-- The request leaves; a queue of which it is the last one ends. -/
def leave (st : Bridge) (t : Ticket) : Bridge :=
  { st with
    queues := st.queues.filter fun q => some q.1 ≠ t.key ∨ q.2 ≠ t.id
    pending := st.pending.filter fun s => s.id ≠ t.id }

/-- A request ends. -/
def finish (st : Bridge) (t : Ticket) (uuid : {u : String // u ≠ ""}) (timestamp : String) (e : Ending) : Bridge :=
  let ended := (st.endSession t e).leave t
  ended.recordTurn (ended.endTurn t uuid timestamp e)

/-- The session is in conflict: it is deleted, and the CLI runs without one. -/
def retry (st : Bridge) (t : Ticket) : Bridge :=
  { st.deleteSession t.key with
    pending := amend Ticket.id t.id (fun s => { s with retried := true }) st.pending }

/-- The process starts again, with the sessions that are texts. -/
def restart (st : Bridge) : Bridge :=
  { st with sessions := st.sessions.filter (fun s => (string? s.2).isSome), queues := [], pending := [] }

/-! ### Clearing -/

/-- The key is that of the prefix, or goes on after a colon. -/
def Under (pre key : String) : Prop := key = pre ∨ (pre ++ ":").toList <+: key.toList

instance (pre key : String) : Decidable (Under pre key) := by unfold Under; infer_instance

/-- `deleteSessionsForConversation` -/
def deleteSessionsForConversation (st : Bridge) (agent conversationId : String) : ℕ × Bridge :=
  if agent = "" ∨ conversationId = "" then (0, st)
  else
    let pre := agent ++ ":" ++ conversationId
    ((st.sessions.filter fun s => Under pre s.1).length,
      { st with sessions := st.sessions.filter fun s => ¬Under pre s.1 })

inductive Response where
  | refused (status : ℕ) (error : String)
  | cleared (turns sessions : ℕ)
  deriving DecidableEq

/-- The answer to `DELETE /history`. -/
def deleteHistory (st : Bridge) (agent conversationId : Option String) : Response × Bridge :=
  match agent.bind agentOf, conversationId.filter (· ≠ "") with
  | some a, some c =>
    if ∃ q ∈ st.queues, Under (a.name ++ ":" ++ c) q.1 then (.refused 409 "conversation is active", st)
    else
      let turns := clearTurns a.name c st.file
      let sessions := { st with file := turns.2 }.deleteSessionsForConversation a.name c
      (.cleared turns.1 sessions.1, sessions.2)
  | _, _ => (.refused 400 "agent and conversation_id are required", st)

/-! ### Runs -/

inductive Step : Bridge → Bridge → Prop
  | chat {st : Bridge} {payload : Payload} {chat : Chat} {prompt : Json} {key : Option String}
    (uuid : {u : String // u ≠ ""}) (timestamp : String) :
    payload.accept = .ok (chat, prompt) → chat.sessionKey = .ok key →
    Step st (st.arrive chat key prompt uuid timestamp)
  | retry {st : Bridge} {t : Ticket} : t ∈ st.pending → st.Runs t → t.chat.agent = .codex → t.retried = false →
    Step st (st.retry t)
  | finish {st : Bridge} {t : Ticket} (uuid : {u : String // u ≠ ""}) (timestamp : String) (e : Ending) :
    t ∈ st.pending → st.Runs t → Step st (st.finish t uuid timestamp e)
  | delete {st : Bridge} (agent conversationId : Option String) : Step st (st.deleteHistory agent conversationId).2
  | restart {st : Bridge} : Step st st.restart

/-- The bridge, from an empty history. -/
def machine : Machine Bridge where
  start st := st = ⟨none, [], [], [], 0⟩
  step := Step

end Bridge

end SmartHome.SharedHistory
