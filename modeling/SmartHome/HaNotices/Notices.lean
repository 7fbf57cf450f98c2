/-
  What the collector keeps of a persistent notification (`notification_view.cjs`): the digest of
  its id, its date, a category with a fixed label, and diagnostics of its content.
-/
import SmartHome.HaNotices.Time
import SmartHome.Lib.Dict
import SmartHome.Mqtt.Counters

namespace SmartHome.HaNotices

open Verif Mqtt

/-! ## Categories -/

/-- A category with its summary. -/
inductive Label where
  | external | backup | globalObserver | proactiveTest | securityScan | icloudAuth | unclassified
  deriving DecidableEq, Repr

def Label.category : Label → String
  | external => "external"
  | backup | securityScan => "backup"
  | globalObserver => "global_observer"
  | proactiveTest => "smart_home_proactive_test"
  | icloudAuth => "icloud_auth"
  | unclassified => "unclassified"

def Label.summary : Label → String
  | external => "Iluminação externa"
  | backup => "Backup"
  | globalObserver => "Observador de automações"
  | proactiveTest => "TESTE de observabilidade"
  | securityScan => "Backup recusado pela verificação de segurança"
  | icloudAuth => "iCloud requer atenção à autenticação"
  | unclassified => "Notificação persistente; conteúdo não exportado"

/-- `kinds` -/
def kinds : List Label := [.external, .backup, .globalObserver, .proactiveTest]

/-- `exactIds` -/
def exactIds : List (String × Label) :=
  [("git_backup_failure", .backup), ("proactive_native_events_acceptance_20261023", .proactiveTest)]

/-- `category_basis` -/
inductive Basis where
  | identifierExact | identifierPrefix | untrustedTextPattern | unknown
  deriving DecidableEq, Repr

def Basis.name : Basis → String
  | identifierExact => "identifier_exact"
  | identifierPrefix => "identifier_prefix"
  | untrustedTextPattern => "untrusted_text_pattern"
  | unknown => "unknown"

/-- An ASCII letter in lower case; JavaScript compares no other letter with an ASCII one. -/
def lower (c : Char) : Char := if c.isUpper then c.toLower else c

/-- `/…/.test(text)` -/
def contains (pattern : String) (text : List Char) : Bool := decide (pattern.toList <:+: text)

/-- `/…/i.test(text)` -/
def containsIgnoringCase (pattern : String) (text : List Char) : Bool :=
  contains pattern (text.map lower)

/-- `diagnostic` -/
def labelOfText (text : List Char) : Option Label :=
  if contains "security_scan_failed" text then some .securityScan
  else if containsIgnoringCase "icloud" text &&
      ["autentica", "auth", "verifica", "verification"].any (containsIgnoringCase · text) then
    some .icloudAuth
  else none

/-- The label of a notification and what it rests on: its id, the beginning of its id or its text. -/
def classify (rawId : String) (text : List Char) : Label × Basis :=
  match exactIds.lookup rawId with
  | some label => (label, .identifierExact)
  | none =>
    match kinds.find? fun l => rawId = l.category ∨ (l.category ++ "_").toList <+: rawId.toList with
    | some label => (label, .identifierPrefix)
    | none => ((labelOfText text).map fun l => (l, .untrustedTextPattern)).getD (.unclassified, .unknown)

/-! ## Notices -/

/-- What a notice says, without its revision.  A snapshot may leave the diagnostics out. -/
structure Clean where
  id : Hex 64
  observedAt : Stamp
  createdOrUpdatedAt : Option Stamp
  label : Label
  basis : Basis
  diagnostics : Option Json
  deriving DecidableEq

structure Notice extends Clean where
  revision : Hex 64
  deriving DecidableEq

def optStampJson : Option Stamp → Json
  | none => .null
  | some s => s.json

/-- The code units of a string (`length`). -/
def utf16Length (s : String) : ℕ := (s.toList.map fun c => if c.toNat < 65536 then 1 else 2).sum

/-- What the reading of a notification takes from elsewhere: `Date.parse`, `String(value || '')`,
    which may throw, and the diagnostics of its id, title and message. -/
structure Runtime where
  dateParse : String → Option Time
  string : Json → Option (List Char)
  diagnostics : String → Json → Json → Option (List (String × Json))

section
variable [Sha256]

/-- The digest of the text of a value. -/
def digest (j : Json) : Hex 64 := sha256 (utf8 j.render)

/-- `revision` -/
def Clean.revisionOf (n : Clean) : Hex 64 :=
  digest (.arr [.str n.id.1, optStampJson n.createdOrUpdatedAt, .str n.label.category, .str n.label.summary,
    .str n.basis.name])

namespace Runtime
variable (r : Runtime)

/-- `iso` -/
def iso : Json → Option Stamp
  | .str s => (r.dateParse s).map Time.toISOString
  | _ => none

/-- `sanitize`; nothing where the source returns null or throws. -/
def sanitize (notification : Json) (observedAt : Stamp) : Option Clean := do
  let rawId ← text? (item notification "notification_id")
  guard (utf16Length rawId ≤ 512)
  let title ← r.string (item notification "title")
  let message ← r.string (item notification "message")
  let (label, basis) := classify rawId (title ++ ' ' :: message)
  let diagnostics ← r.diagnostics rawId (item notification "title") (item notification "message")
  return ⟨sha256 (utf8 rawId.toList), observedAt, r.iso (item notification "created_at"), label, basis,
    some (.obj diagnostics)⟩

end Runtime
end
end SmartHome.HaNotices
