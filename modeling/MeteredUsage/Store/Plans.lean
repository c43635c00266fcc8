import MeteredUsage.Store.Snapshots

/-! A subscription paid for an account. Every write that adds, edits or removes a plan records
a `plan.changed` in its own transaction. An edit that leaves the plan as it was, is refused,
or names no plan records none. -/

namespace MeteredUsage.Store.Plans
open MeteredUsage.Values MeteredUsage.Store.Schema MeteredUsage.Store.Continuations
open MeteredUsage.Store.Snapshots MeteredUsage.Library.Keyed MeteredUsage.Library.Transaction

structure NewPlan where
  accountId : AccountId
  name : String
  monthlyUsd : Sql.Float64
  periodStart : Timestamp
  periodEnd : Option Timestamp
deriving DecidableEq, Repr

/-- What is wrong with a plan, if anything. -/
def NewPlan.check (plan : NewPlan) : Option PlanError :=
  if Sql.strTrim plan.name = "" then some .blankName
  else if !plan.monthlyUsd.isFinite || plan.monthlyUsd.lt .zero then some .price
  else if plan.periodEnd.any fun finish => decide (finish ≤ plan.periodStart) then some .emptyPeriod
  else none

/-- The row a checked plan is stored as. -/
def NewPlan.row (plan : NewPlan) (id : PlanId) : Plan where
  id := id
  accountId := plan.accountId
  name := Sql.strTrim plan.name
  monthlyUsd := plan.monthlyUsd.column
  periodStart := plan.periodStart
  periodEnd := plan.periodEnd

/-- Every field absent keeps its value. `periodEnd` is `some none` to clear it. -/
structure PlanChange where
  accountId : Option AccountId
  name : Option String
  monthlyUsd : Option Sql.Float64
  periodStart : Option Timestamp
  periodEnd : Option (Option Timestamp)
deriving DecidableEq, Repr

/-- Whether the plan would read differently after the change. A name is compared as it is
stored, trimmed, and a price bit for bit. -/
def PlanChange.alters (change : PlanChange) (plan : Plan) : Bool :=
  change.accountId.any (· ≠ plan.accountId) ||
    change.name.any (fun name => Sql.strTrim name ≠ plan.name) ||
    change.monthlyUsd.any (fun usd => usd.bits ≠ plan.monthlyUsd.bits) ||
    change.periodStart.any (· ≠ plan.periodStart) ||
    change.periodEnd.any (· ≠ plan.periodEnd)

/-- The plan an edit asks for. -/
def PlanChange.applied (change : PlanChange) (current : Plan) : NewPlan where
  accountId := change.accountId.getD current.accountId
  name := change.name.getD current.name
  monthlyUsd := change.monthlyUsd.getD current.monthlyUsd
  periodStart := change.periodStart.getD current.periodStart
  periodEnd := change.periodEnd.getD current.periodEnd

/-- `Plan::read`: the row, where its account and source are there to be joined, and the
credential that replaced the account. -/
def readPlan (id : PlanId) (tables : Tables) : Option (Plan × Option AccountId) := do
  let plan ← lookup Plan.id tables.plans id
  let account ← accountOf tables plan.accountId
  let _ ← lookup Source.id tables.sources account.sourceId
  return (plan, linked (replacements tables) plan.accountId)

/-- `INSERT INTO plan … SELECT … FROM account WHERE account_id = ?`, answering whether there
was such an account. -/
def insertPlan (plan : Plan) (tables : Tables) : Option (Bool × Tables) :=
  if tables.accounts.any (·.id = plan.accountId) then
    if tables.plans.any (·.id = plan.id) then none
    else some (true, { tables with plans := tables.plans ++ [plan] })
  else some (false, tables)

/-- `UPDATE plan SET … FROM account WHERE account.account_id = ? AND plan.plan_id = ?`. -/
def updatePlan (plan : Plan) (tables : Tables) : Bool × Tables :=
  if tables.accounts.any (·.id = plan.accountId) then
    (tables.plans.any (·.id = plan.id),
      { tables with plans := tables.plans.map fun row => if row.id = plan.id then plan else row })
  else (false, tables)

def deletePlan (id : PlanId) (tables : Tables) : Bool × Tables :=
  (tables.plans.any (·.id = id), { tables with plans := tables.plans.filter (·.id ≠ id) })

/-- `plan.check()?`. -/
def checked (plan : NewPlan) : Write Unit :=
  match plan.check with
  | some error => refuse (.plan error)
  | none => pure ()

def create (plan : NewPlan) : Write (Ending (Plan × Option AccountId)) := do
  checked plan
  let id ← nextId
  let before ← fetch replacements
  let inserted ← attempt (insertPlan (plan.row id))
  refuseIf (inserted = false) (.plan .unknownAccount)
  let created ← require (.plan .unknownAccount) (← fetch (readPlan id))
  recordLinkChanges before [.plan id]
  commit (.database .query) created

/-- Writes a plan that an edit alters. -/
def rewrite (id : PlanId) (plan : NewPlan) :
    Write (Ending (Option (Plan × Option AccountId))) := do
  checked plan
  let before ← fetch replacements
  let updated ← attempt fun tables => some (updatePlan (plan.row id) tables)
  refuseIf (updated = false) (.plan .unknownAccount)
  let edited ← fetch (readPlan id)
  recordLinkChanges before [.plan id]
  commit (.database .query) edited

/-- Answers nothing when there is no such plan. -/
def update (id : PlanId) (change : PlanChange) :
    Write (Ending (Option (Plan × Option AccountId))) := do
  match ← fetch (readPlan id) with
  | none => return .dropped none
  | some current =>
    -- A stored plan passed the checks, so one that reads the same needs none.
    if change.alters current.1 then rewrite id (change.applied current.1)
    else return .dropped (some current)

/-- Answers whether there was a plan to delete. -/
def delete (id : PlanId) : Write (Ending Bool) := do
  let before ← fetch replacements
  let deleted ← attempt fun tables => some (deletePlan id tables)
  if deleted then
    recordLinkChanges before [.plan id]
    commit (.database .query) true
  else return .dropped false

end MeteredUsage.Store.Plans
