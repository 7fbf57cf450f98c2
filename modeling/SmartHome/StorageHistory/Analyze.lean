/-
  `storage-history-analyze`: the history of the storage's usage, and how much it grew.

  Times are in milliseconds, and numbers are exact; `storage-input-normalize` lets finite numbers
  through only.  Production and tests have histories of their own.
-/
import Mathlib.Algebra.Order.Floor.Ring
import Mathlib.Data.List.Sort
import Mathlib.Data.Rat.Floor

namespace SmartHome.StorageHistory

/-! ## Policy -/

/-- The part of the policy that is read here, as `storage-policy-validate` lets it be stored. -/
structure Policy where
  sampleIntervalMin : ℕ
  historyRetentionDays : ℕ
  limits : (1 ≤ sampleIntervalMin ∧ sampleIntervalMin ≤ 120) ∧
    2 ≤ historyRetentionDays ∧ historyRetentionDays ≤ 30

def Policy.retention (p : Policy) : ℚ := p.historyRetentionDays * 86400000

def Policy.interval (p : Policy) : ℚ := p.sampleIntervalMin * 60000

/-! ## History -/

/-- A sample; `test` tells its source. -/
structure Sample (α : Type) where
  ts : ℚ
  value : α
  test : Bool

section
variable {α : Type} (p : Policy)

/-- The samples of the source that are kept at a time. -/
def recent (test : Bool) (now : ℚ) (x : Sample α) : Bool :=
  x.test = test ∧ now - p.retention ≤ x.ts ∧ x.ts ≤ now + p.interval

/-- A sample is appended, or takes the place of the newest one. -/
def enter (history : List (Sample α)) (x : Sample α) : List (Sample α) :=
  match history.getLast? with
  | some last => if p.interval / 2 ≤ x.ts - last.ts then history ++ [x] else history.dropLast ++ [x]
  | none => history ++ [x]

/-- `history.sort((a, b) => a.ts - b.ts)` -/
def sortByTime (history : List (Sample α)) : List (Sample α) :=
  history.insertionSort fun a b => a.ts ≤ b.ts

/-- The history with a new sample. -/
def track (history : List (Sample α)) (x : Sample α) : List (Sample α) :=
  sortByTime (enter p (history.filter (recent p x.test x.ts)) x)

end

/-! ## Growth -/

/-- `Math.round(x * 10) / 10` -/
def round (x : ℚ) : ℚ := ⌊x * 10 + 1 / 2⌋ / 10

/-- The sample that growth over an age is measured from: the newest one of that age, if it is not
    two hours older. -/
def point (history : List (Sample ℚ)) (now age : ℚ) : Option (Sample ℚ) :=
  (history.filter fun x => x.ts ≤ now - age).getLast?.filter fun x => |now - x.ts - age| ≤ 7200000

def growth (history : List (Sample ℚ)) (now used age : ℚ) : Option ℚ :=
  (point history now age).map fun x => round (used - x.value)

abbrev Categories := List (String × ℚ)

/-- The sample that the categories are compared with. -/
def baseline (history : List (Sample Categories)) (now : ℚ) : Option (Sample Categories) :=
  (history.filter fun x => x.ts ≤ now - 86400000 ∧ 79200000 ≤ now - x.ts ∧
    now - x.ts ≤ 93600000).getLast?

/-- The growth of the categories that the baseline has too. -/
def categoryGrowth (base : Option (Sample Categories)) (categories : Categories) : Categories :=
  categories.filterMap fun c =>
    (base.bind fun b => b.value.lookup c.1).map fun old => (c.1, c.2 - old)

/-- The category that grew most, if it grew by 64 MiB. -/
def largest (growth : Categories) : Option (String × ℚ) :=
  ((growth.filter fun c => 67108864 ≤ c.2).insertionSort fun a b => b.2 ≤ a.2).head?

/-! ## The node -/

/-- `msg.storage` and `msg.policy` -/
structure Call where
  policy : Policy
  now : ℚ
  used : ℚ
  testMode : Bool
  categories : Categories
  labels : String → Option String

/-- The two histories of a mode. -/
structure Store where
  history : List (Sample ℚ)
  categoryHistory : List (Sample Categories)

/-- What the node adds to `msg.storage`. -/
structure Analysis where
  historySamples : ℕ
  historyCoverageHours : ℚ
  historyOldestAt : Option ℚ
  growth24h : Option ℚ
  growth7d : Option ℚ
  categoryGrowth : Categories
  growthCause : Option String
  growthCauseBytes : Option ℚ

namespace Call
variable (c : Call) (s : Store)

def history : List (Sample ℚ) := track c.policy s.history ⟨c.now, c.used, c.testMode⟩

/-- A call without categories only forgets. -/
def categoryHistory : List (Sample Categories) :=
  if c.categories = [] then
    sortByTime (s.categoryHistory.filter (recent c.policy c.testMode c.now))
  else track c.policy s.categoryHistory ⟨c.now, c.categories, c.testMode⟩

def store : Store := ⟨c.history s, c.categoryHistory s⟩

/-- The node, on the store of its mode. -/
def analysis : Analysis :=
  let history := c.history s
  let growths := categoryGrowth (baseline (c.categoryHistory s) c.now) c.categories
  { historySamples := history.length
    historyCoverageHours := (history.head?.map fun x => max 0 ((⌊(c.now - x.ts) / 360000 + 1 / 2⌋ : ℚ) / 10)).getD 0
    historyOldestAt := history.head?.map Sample.ts
    growth24h := growth history c.now c.used 86400000
    growth7d := growth history c.now c.used 604800000
    categoryGrowth := growths
    growthCause := match largest growths with
      | some x => c.labels x.1
      | none => some "nao identificado"
    growthCauseBytes := (largest growths).map Prod.snd }

end Call

/-- The stores of production and of tests after some calls. -/
def run (calls : List Call) : Bool → Store :=
  calls.foldl (fun stores c test => if test = c.testMode then c.store (stores test) else stores test)
    fun _ => ⟨[], []⟩

end SmartHome.StorageHistory
