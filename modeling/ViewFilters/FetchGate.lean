/-!
# ViewFilters.FetchGate

When to send a request, and whether its response still matters.  Changes come in
bursts and responses out of order, so:

* each change starts a new generation and the quiet time anew;
* a request goes out once the quiet time has passed since the last change;
* a response counts only while its generation is the current one.

Times are milliseconds from a common zero.  A time before the last change counts
as no time since it.
-/

namespace ViewFilters

/-- The state of a view's requests. -/
structure FetchGate where
  /-- The quiet time. -/
  debounce : Nat
  /-- The number of changes so far, without an upper limit; a counter of 64 bits agrees with it
  below 2^64 changes. -/
  generation : Nat
  /-- The time of the last change, while no request was sent for it. -/
  since : Option Nat
  deriving DecidableEq

namespace FetchGate

/-- A gate before any change. -/
def new (debounce : Nat) : FetchGate := ⟨debounce, 0, none⟩

/-- Record a change. -/
def mark (g : FetchGate) (now : Nat) : FetchGate :=
  { g with generation := g.generation + 1, since := some now }

/-- Whether a change waits for its request. -/
def isPending (g : FetchGate) : Bool := g.since.isSome

/-- Whether a request is due. -/
def isDue (g : FetchGate) (now : Nat) : Bool :=
  match g.since with
  | some since => g.debounce ≤ now - since
  | none => false

/-- Note that a request was sent. -/
def clear (g : FetchGate) : FetchGate := { g with since := none }

/-- The generation to request, if a request is due. -/
def poll (g : FetchGate) (now : Nat) : FetchGate × Option Nat :=
  if g.isDue now then (g.clear, some g.generation) else (g, none)

/-- The generation to request right away. -/
def take (g : FetchGate) : FetchGate × Nat := (g.clear, g.generation)

/-- Whether no change came after a generation. -/
def isCurrent (g : FetchGate) (generation : Nat) : Bool := g.generation = generation

/-! ## what each operation does to the gate -/

@[simp] theorem generation_mark (g : FetchGate) (now : Nat) :
    (g.mark now).generation = g.generation + 1 := rfl

@[simp] theorem generation_clear (g : FetchGate) : g.clear.generation = g.generation := rfl

@[simp] theorem isPending_clear (g : FetchGate) : g.clear.isPending = false := rfl

/-- Asking when a request is due gives its generation, and it is asked for no more. -/
theorem poll_of_isDue {g : FetchGate} {now : Nat} (h : g.isDue now = true) :
    g.poll now = (g.clear, some g.generation) := by
  simp [poll, h]

/-- Asking when nothing is due changes nothing. -/
theorem poll_of_not_isDue {g : FetchGate} {now : Nat} (h : g.isDue now = false) :
    g.poll now = (g, none) := by
  simp [poll, h]

end FetchGate

end ViewFilters
