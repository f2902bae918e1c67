import Interview.Item.Basic

/-! Where the replies of a run come from. A source has a state of its own, which each use replaces. -/

namespace Interview

inductive InterruptChoice where
  | inspect
  | abort
deriving DecidableEq

structure AnswerSource (σ : Type) where
  next : Item → σ → Except Error String × σ
  onInterrupt : σ → Except Error InterruptChoice × σ
  remaining : σ → Nat
  /-- What the source itself has put on the screen so far. -/
  written : σ → List Char := fun _ => []

end Interview
