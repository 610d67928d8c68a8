/-!
# Strict total orders

Row keys, columns, patterns and stored versions are all kept in ascending order of some key. This
file states what such an order must satisfy and shows that the lexicographic combination of two of
them satisfies it again, which is how every compound key of the library is ordered.
-/

namespace DataflowOps

/-- A strict order in which two keys that do not precede each other are equal. -/
class StrictTotalOrder (Key : Type) [LT Key] : Prop where
  irrefl (key : Key) : ¬ key < key
  trans {low middle high : Key} : low < middle → middle < high → low < high
  connected {left right : Key} : ¬ left < right → ¬ right < left → left = right

namespace StrictTotalOrder

variable {Key First Second : Type} [LT Key] [LT First] [LT Second]

theorem asymm [StrictTotalOrder Key] {left right : Key} (before : left < right) :
    ¬ right < left :=
  fun after => irrefl left (trans before after)

theorem lt_of_not_lt [StrictTotalOrder Key] {left right : Key} (notBefore : ¬ left < right)
    (different : left ≠ right) : right < left :=
  Classical.byContradiction fun notAfter => different (connected notBefore notAfter)

theorem lexLt_irrefl [StrictTotalOrder First] [StrictTotalOrder Second] (pair : First × Second) :
    ¬ Prod.lexLt pair pair := by
  rintro (before | ⟨_, before⟩)
  · exact irrefl _ before
  · exact irrefl _ before

theorem lexLt_trans [StrictTotalOrder First] [StrictTotalOrder Second]
    {low middle high : First × Second} (lowBefore : Prod.lexLt low middle)
    (middleBefore : Prod.lexLt middle high) : Prod.lexLt low high := by
  rcases lowBefore with lowFirst | ⟨lowEqual, lowSecond⟩
  · rcases middleBefore with middleFirst | ⟨middleEqual, _⟩
    · exact .inl (trans lowFirst middleFirst)
    · exact .inl (middleEqual ▸ lowFirst)
  · rcases middleBefore with middleFirst | ⟨middleEqual, middleSecond⟩
    · exact .inl (lowEqual ▸ middleFirst)
    · exact .inr ⟨lowEqual.trans middleEqual, trans lowSecond middleSecond⟩

theorem lexLt_connected [StrictTotalOrder First] [StrictTotalOrder Second]
    {left right : First × Second} (notBefore : ¬ Prod.lexLt left right)
    (notAfter : ¬ Prod.lexLt right left) : left = right := by
  have firstEqual : left.1 = right.1 :=
    connected (fun before => notBefore (.inl before)) (fun before => notAfter (.inl before))
  have secondEqual : left.2 = right.2 :=
    connected (fun before => notBefore (.inr ⟨firstEqual, before⟩))
      (fun before => notAfter (.inr ⟨firstEqual.symm, before⟩))
  exact Prod.ext firstEqual secondEqual

end StrictTotalOrder

end DataflowOps
