import DataflowOps.Order

/-!
# Interval ends

One end of an interval of keys: open, at a key, or just past a key. The same type serves as the
lower end of a seek in the store and as either end of an interval of rows.
-/

namespace DataflowOps

/-- One end of an interval of keys. -/
inductive Bound (Key : Type) where
  | unbounded
  | included (key : Key)
  | excluded (key : Key)
  deriving DecidableEq, Repr

namespace Bound

/-- The text that shows a bound, by that of its key. -/
def text {Key : Type} (keyText : Key → String) : Bound Key → String
  | unbounded => "Unbounded"
  | included key => "Included(" ++ keyText key ++ ")"
  | excluded key => "Excluded(" ++ keyText key ++ ")"

variable {Key : Type} [LT Key] [DecidableLT Key]

/-- Whether `key` lies at or past a bound read as the lower end of an interval. -/
def admitsFromBelow : Bound Key → Key → Bool
  | unbounded, _ => true
  | included low, key => !decide (key < low)
  | excluded low, key => decide (low < key)

/-- Whether `key` lies at or before a bound read as the upper end of an interval. -/
def admitsFromAbove : Bound Key → Key → Bool
  | unbounded, _ => true
  | included high, key => !decide (high < key)
  | excluded high, key => decide (key < high)

theorem admitsFromBelow_of_lt [StrictTotalOrder Key] {bound : Bound Key} {low high : Key}
    (admitted : bound.admitsFromBelow low = true) (before : low < high) :
    bound.admitsFromBelow high = true := by
  cases bound with
  | unbounded => rfl
  | included key =>
    simp only [admitsFromBelow, Bool.not_eq_true', decide_eq_false_iff_not] at admitted ⊢
    exact fun after => admitted (StrictTotalOrder.trans before after)
  | excluded key =>
    simp only [admitsFromBelow, decide_eq_true_eq] at admitted ⊢
    exact StrictTotalOrder.trans admitted before

/-- The inclusive bound of an optional key, open when there is none. -/
def ofOption : Option Key → Bound Key
  | none => unbounded
  | some key => included key

end Bound

end DataflowOps
