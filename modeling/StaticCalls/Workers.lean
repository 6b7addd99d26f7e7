/-! Working on the elements of a list, one after the other or side by side. -/
namespace StaticCalls

/-- A way to get the results of a function for all elements of a list. They stand in the order of
the elements, in whatever order these have been worked on. -/
structure Workers where
  map : {α β : Type} → (α → β) → List α → List β
  map_eq : ∀ {α β : Type} (f : α → β) (l : List α), map f l = l.map f

namespace Workers

/-- One element after the other. -/
def one : Workers where
  map := List.map
  map_eq _ _ := rfl

/-- Each element in a task of its own. -/
def tasks : Workers where
  map f l := (l.map fun a => Task.spawn fun _ => f a).map Task.get
  map_eq f l := by
    rw [List.map_map]
    rfl

end Workers
end StaticCalls
