/-!
# ViewFilters.Text.Pieces

Lists cut at a separator and put together again:

```
pieces ';' "a;;b"  =  ["a", "", "b"]
joined ';' ["a", "", "b"]  =  "a;;b"
```

Nothing is escaped.  Cutting and joining gives the list back always
(`joined_pieces`).  Joining and cutting gives the pieces of every piece, when
there is at least one (`pieces_joined_eq_flatMap`), so it gives the pieces back
when none of them holds the separator (`pieces_joined`).
-/

namespace ViewFilters

variable {α : Type} [DecidableEq α]

/-- The stretches of a list between the occurrences of `sep`.  A list without
`sep`, the empty one too, is a single piece. -/
def pieces (sep : α) : List α → List (List α)
  | [] => [[]]
  | x :: xs =>
    if x = sep then [] :: pieces sep xs
    else match pieces sep xs with
      | [] => [[x]]
      | p :: ps => (x :: p) :: ps

/-- The pieces in order, with `sep` between each two. -/
def joined {β : Type} (sep : β) : List (List β) → List β
  | [] => []
  | [p] => p
  | p :: q :: ps => p ++ sep :: joined sep (q :: ps)

/-- A list cut at its first `sep`: what stands before it and what stands after.
Without `sep` all of the list stands before it. -/
def cutAt (sep : α) : List α → List α × List α
  | [] => ([], [])
  | x :: xs => if x = sep then ([], xs) else (x :: (cutAt sep xs).1, (cutAt sep xs).2)

/-- The stretches of a text between the occurrences of a character. -/
def splitText (sep : Char) (s : String) : List String :=
  (pieces sep s.toList).map String.ofList

/-- The texts in order, with a character between each two. -/
def joinTexts (sep : Char) (items : List String) : String :=
  String.ofList (joined sep (items.map String.toList))

/-! ## pieces -/

@[simp] theorem pieces_nil (sep : α) : pieces sep [] = [[]] := rfl

@[simp] theorem pieces_cons_self (sep : α) (xs : List α) :
    pieces sep (sep :: xs) = [] :: pieces sep xs := by simp [pieces]

theorem pieces_ne_nil (sep : α) (xs : List α) : pieces sep xs ≠ [] := by
  cases xs with
  | nil => simp
  | cons x xs =>
    simp only [pieces]
    split
    · simp
    · split <;> simp

/-- What stands before a separator is cut apart from what stands after it. -/
theorem pieces_append_cons (sep : α) (xs ys : List α) :
    pieces sep (xs ++ sep :: ys) = pieces sep xs ++ pieces sep ys := by
  induction xs with
  | nil => simp
  | cons x xs ih =>
    by_cases hx : x = sep
    · simp [pieces, hx, ih]
    · obtain ⟨p, ps, hp⟩ := List.exists_cons_of_ne_nil (pieces_ne_nil sep xs)
      simp [pieces, hx, ih, hp]

/-- A list without separators is one piece. -/
theorem pieces_of_notMem {sep : α} {p : List α} (h : sep ∉ p) : pieces sep p = [p] := by
  induction p with
  | nil => rfl
  | cons y p ih =>
    simp only [List.mem_cons, not_or] at h
    simp [pieces, Ne.symm h.1, ih h.2]

/-- No piece holds the separator. -/
theorem notMem_of_mem_pieces {sep : α} {xs p : List α} (h : p ∈ pieces sep xs) : sep ∉ p := by
  induction xs generalizing p with
  | nil => simp_all
  | cons x xs ih =>
    simp only [pieces] at h
    split at h
    · rcases List.mem_cons.1 h with rfl | h
      · simp
      · exact ih h
    · next hx =>
      split at h
      · simp_all [pieces_ne_nil]
      · next q qs hq =>
        rcases List.mem_cons.1 h with rfl | h
        · have := ih (p := q) (by simp [hq])
          simp [Ne.symm hx, this]
        · exact ih (by simp [hq, h])

/-! ## joining -/

@[simp] theorem joined_nil {β : Type} (sep : β) : joined sep [] = [] := rfl

@[simp] theorem joined_singleton {β : Type} (sep : β) (p : List β) : joined sep [p] = p := rfl

theorem joined_cons {β : Type} {sep : β} {ps : List (List β)} (h : ps ≠ []) (p : List β) :
    joined sep (p :: ps) = p ++ sep :: joined sep ps := by
  cases ps with
  | nil => contradiction
  | cons q ps => rfl

/-- Joining the pieces of a list gives the list. -/
theorem joined_pieces (sep : α) (xs : List α) : joined sep (pieces sep xs) = xs := by
  induction xs with
  | nil => rfl
  | cons x xs ih =>
    simp only [pieces]
    split
    · next h => rw [joined_cons (pieces_ne_nil sep xs), ih, h, List.nil_append]
    · split
      · next h => exact absurd h (pieces_ne_nil sep xs)
      · next p ps h =>
        rw [h] at ih
        cases ps with
        | nil => simp_all
        | cons q ps => simp_all [joined]

/-- Cutting a joined list cuts each piece by itself. -/
theorem pieces_joined_eq_flatMap {sep : α} {ps : List (List α)} (hne : ps ≠ []) :
    pieces sep (joined sep ps) = ps.flatMap (pieces sep) := by
  induction ps with
  | nil => contradiction
  | cons p ps ih =>
    cases ps with
    | nil => simp
    | cons q ps =>
      rw [joined_cons (by simp), pieces_append_cons, ih (by simp), ← List.flatMap_cons]

/-- Pieces that hold no separator come back from the joined list. -/
theorem pieces_joined {sep : α} {ps : List (List α)} (hne : ps ≠ []) (h : ∀ p ∈ ps, sep ∉ p) :
    pieces sep (joined sep ps) = ps := by
  have hone : ps.map (pieces sep) = ps.map fun p => [p] :=
    List.map_congr_left fun p hp => pieces_of_notMem (h p hp)
  calc
    pieces sep (joined sep ps) = ps.flatMap (pieces sep) := pieces_joined_eq_flatMap hne
    _ = ps.flatMap fun p => [p] := congrArg List.flatten hone
    _ = ps := List.flatMap_singleton' ps

/-! ## the first separator -/

theorem cutAt_append_cons {sep : α} {p : List α} (h : sep ∉ p) (xs : List α) :
    cutAt sep (p ++ sep :: xs) = (p, xs) := by
  induction p with
  | nil => simp [cutAt]
  | cons y p ih =>
    simp only [List.mem_cons, not_or] at h
    simp [cutAt, Ne.symm h.1, ih h.2]

end ViewFilters
