import OmniagentPlus.CoreContracts.CoordinationContract

/-! Pages of coordination queries in `coordination-channel.ts`: a limit, a cursor, and the
order of (timestamp, id) pairs. -/
namespace OmniagentPlus.StateLedger
open OmniagentPlus.Foundation OmniagentPlus.CoreContracts

structure CoordinationTuple where
  timestamp : ℤ
  id : Text
  deriving DecidableEq, Repr

/-- A query's page as the caller gives it; the cursor's timestamp is an instant. -/
structure CoordinationPage where
  limit : Option ℤ
  cursor : Option CoordinationTuple
  deriving DecidableEq, Repr

/-- `validateCoordinationPage`: the limit and the cursor in contract timestamps. -/
def validateCoordinationPage (query : CoordinationPage) : Option (ℕ × Option CoordinationTuple) :=
  let limit := query.limit.getD 100
  if 1 ≤ limit ∧ limit ≤ 500 ∧ query.cursor.all (fun c => !c.id.isEmpty) then
    some (limit.toNat,query.cursor.map fun c => { c with timestamp := toContractTimestamp c.timestamp })
  else none

/-- `localeCompare` of two printed timestamps. A year of more than four digits is printed
after a sign, and signs sort before digits. -/
def compareTimestamps (a b : ℤ) : Ordering :=
  (compare (isoTimestampSeconds a).toNat (isoTimestampSeconds b).toNat).then (compare a b)

/-- `Buffer.compare` of two encoded ids, which is the order of their code points. -/
def compareIds (a b : Text) : Ordering := compare (Text.codePoints a) (Text.codePoints b)

def compareCoordinationTuple (a b : CoordinationTuple) : Ordering :=
  (compareTimestamps a.timestamp b.timestamp).then (compareIds a.id b.id)

instance : Std.TransCmp compareCoordinationTuple :=
  inferInstanceAs (Std.TransCmp (compareLex
    (compareLex (compareOn fun a : CoordinationTuple => (isoTimestampSeconds a.timestamp).toNat)
      (compareOn fun a => a.timestamp)) (compareOn fun a => Text.codePoints a.id)))

/-- Tuples that compare equal have ids that are encoded the same. -/
theorem codePoints_of_compareCoordinationTuple {a b : CoordinationTuple}
    (h : compareCoordinationTuple a b = .eq) : Text.codePoints a.id = Text.codePoints b.id := by
  apply Std.LawfulEqOrd.eq_of_compare
  exact (Ordering.then_eq_eq.mp h).2

/-- Between printed timestamps of four-digit years the order is that of the instants. -/
theorem compareTimestamps_of_iso {a b : ℤ} (ha : isoTimestampSeconds a = true) (hb : isoTimestampSeconds b = true) :
    compareTimestamps a b = compare a b := by
  simp [compareTimestamps, ha, hb]

end OmniagentPlus.StateLedger
