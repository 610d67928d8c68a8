import DataflowOps.Column
import DataflowOps.OperatorMistake
import DataflowOps.OrderedMap

/-!
# Column patterns

A scan can be narrowed to whole families and to single columns. A pattern is written as a family, or
as a family and a qualifier with one colon between them; an empty qualifier after the colon is
different from no qualifier.
-/

namespace DataflowOps

/-- A restriction to a family or to a single column. -/
inductive ColumnPattern where
  | family (name : Bytes)
  | column (name qualifier : Bytes)
  deriving DecidableEq, Repr

namespace ColumnPattern

/-- The pattern written by a specifier: the whole of it without a colon, or the parts around its
only colon. -/
def parse (specifier : String) : Except OperatorMistake ColumnPattern :=
  let characters := specifier.toList
  let family := characters.takeWhile (· ≠ Column.separator)
  match characters.dropWhile (· ≠ Column.separator) with
  | [] => .ok (.family (Utf8.encodeChars family))
  | _ :: qualifier =>
    if Column.separator ∈ qualifier then .error (.tooManyFields specifier)
    else .ok (.column (Utf8.encodeChars family) (Utf8.encodeChars qualifier))

def accepts : ColumnPattern → Column → Bool
  | family name, stored => stored.family == name
  | column name qualifier, stored => stored.family == name && stored.qualifier == qualifier

/-- Patterns are ordered by kind, families first, and then by their bytes. -/
protected def lt : ColumnPattern → ColumnPattern → Prop
  | family left, family right => left < right
  | family _, column _ _ => True
  | column _ _, family _ => False
  | column leftName leftQualifier, column rightName rightQualifier =>
    Prod.lexLt (leftName, leftQualifier) (rightName, rightQualifier)

instance : LT ColumnPattern := ⟨ColumnPattern.lt⟩

instance : DecidableLT ColumnPattern
  | family left, family right => inferInstanceAs (Decidable (left < right))
  | family _, column _ _ => isTrue trivial
  | column _ _, family _ => isFalse id
  | column leftName leftQualifier, column rightName rightQualifier =>
    inferInstanceAs (Decidable (Prod.lexLt (leftName, leftQualifier) (rightName, rightQualifier)))

instance : StrictTotalOrder ColumnPattern where
  irrefl pattern :=
    match pattern with
    | family name => @StrictTotalOrder.irrefl Bytes _ _ name
    | column _ _ => StrictTotalOrder.lexLt_irrefl _
  trans {low middle high} lowBefore middleBefore :=
    match low, middle, high, lowBefore, middleBefore with
    | family _, family _, family _, lowBefore, middleBefore =>
      @StrictTotalOrder.trans Bytes _ _ _ _ _ lowBefore middleBefore
    | family _, _, column _ _, _, _ => trivial
    | column _ _, column _ _, column _ _, lowBefore, middleBefore =>
      StrictTotalOrder.lexLt_trans lowBefore middleBefore
    | family _, column _ _, family _, _, middleBefore => middleBefore.elim
    | column _ _, family _, _, lowBefore, _ => lowBefore.elim
    | column _ _, column _ _, family _, _, middleBefore => middleBefore.elim
  connected {left right} notBefore notAfter :=
    match left, right, notBefore, notAfter with
    | family _, family _, notBefore, notAfter =>
      congrArg family (@StrictTotalOrder.connected Bytes _ _ _ _ notBefore notAfter)
    | family _, column _ _, notBefore, _ => absurd trivial notBefore
    | column _ _, family _, _, notAfter => absurd trivial notAfter
    | column _ _, column _ _, notBefore, notAfter => by
      have equal := StrictTotalOrder.lexLt_connected notBefore notAfter
      cases equal
      rfl

/-- A set of patterns in their order, each once. -/
abbrev Collection := OrderedMap ColumnPattern Unit

def Collection.ofList (patterns : List ColumnPattern) : Collection :=
  patterns.foldl (fun collection pattern => collection.insert pattern ()) OrderedMap.empty

end ColumnPattern

end DataflowOps
