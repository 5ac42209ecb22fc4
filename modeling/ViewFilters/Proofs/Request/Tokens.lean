import Mathlib.Data.List.Forall2
import ViewFilters.Proofs.Filter.Normal
import ViewFilters.Proofs.Request.Joined

/-!
# ViewFilters.Proofs.Request.Tokens

What the tokens of a request tell.  Nothing is escaped in a token, so it is read by a cut at
its first mark, whatever comes after:

```
branch=a=b               branch     eq    a=b
result*failed;skipped    result     in    failed;skipped
a!b=c                    a          ne    b=c
```

The cut is in the right place unless the name of the field holds a mark: the last line may
also stand for the field `a!b`, as `readToken?_append` leaves open.  With other names a list
of tokens tells the fields, the operators and the texts of the values, one by one, and then
the filters themselves if no list element holds a `;` (`tokens_identify_filters`).
-/

namespace ViewFilters

/-! ## one token -/

/-- The operator of a mark. -/
def Operator.ofMark? (c : Char) : Option Operator := all.find? fun op => op.mark = c

theorem Operator.ofMark?_mark (op : Operator) : ofMark? op.mark = some op := by
  cases op <;> decide

theorem Operator.ofMark?_eq_none_iff {c : Char} : ofMark? c = none ↔ ∀ op, mark op ≠ c := by
  simp [ofMark?, mem_all]

/-- A text cut at its first mark: what comes before it, the operator, and what comes after. -/
def readToken? : List Char → Option (List Char × Operator × List Char)
  | [] => none
  | c :: cs =>
    match Operator.ofMark? c with
    | some op => some ([], op, cs)
    | none => (readToken? cs).map fun t => (c :: t.1, t.2)

/-- A name without a mark is read back, and all that follows its mark. -/
theorem readToken?_append {name : List Char} (h : ∀ op : Operator, op.mark ∉ name)
    (op : Operator) (text : List Char) :
    readToken? (name ++ op.mark :: text) = some (name, op, text) := by
  induction name with
  | nil => simp [readToken?, Operator.ofMark?_mark]
  | cons c name ih =>
      simp only [List.mem_cons, not_or] at h
      have hc : Operator.ofMark? c = none := Operator.ofMark?_eq_none_iff.2 fun op => (h op).1
      simp [readToken?, hc, ih fun op => (h op).2]

namespace Filter

variable {f g : Filter} {fs gs : Selection}

/-- The name of the field holds no mark. -/
def Unmarked (f : Filter) : Prop := ∀ op : Operator, op.mark ∉ f.field.toList

/-- The filters have the same field, the same operator and the same text of the value. -/
def SameParts (f g : Filter) : Prop :=
  f.field = g.field ∧ f.operator = g.operator ∧ f.value.render = g.value.render

theorem readToken?_token (h : f.Unmarked) :
    readToken? f.token.toList = some (f.field.toList, f.operator, f.value.render.toList) := by
  rw [toList_token, readToken?_append h]

theorem token_eq_iff (hf : f.Unmarked) (hg : g.Unmarked) :
    f.token = g.token ↔ f.SameParts g := by
  constructor
  · intro h
    have hread := readToken?_token hf
    rw [h, readToken?_token hg] at hread
    simpa [SameParts, String.toList_inj, eq_comm] using hread
  · rintro ⟨hfield, hop, htext⟩
    rw [token, token, hfield, hop, htext]

/-! ## tokens in a row -/

theorem map_token_eq_iff (hf : ∀ f ∈ fs, f.Unmarked) (hg : ∀ g ∈ gs, g.Unmarked) :
    fs.map token = gs.map token ↔ List.Forall₂ SameParts fs gs := by
  induction fs generalizing gs with
  | nil => cases gs <;> simp
  | cons f fs ih =>
      cases gs with
      | nil => simp
      | cons g gs =>
          rw [List.forall_mem_cons] at hf hg
          rw [List.map_cons, List.map_cons, List.cons.injEq, List.forall₂_cons,
            token_eq_iff hf.1 hg.1, ih hf.2 hg.2]

/-- A filter that can be built, in whose value no list element holds the separator. -/
def Recoverable (f : Filter) : Prop := (∃ catalog, f.Valid catalog) ∧ f.value.Separable

theorem eq_of_sameParts (hf : f.Recoverable) (hg : g.Recoverable) (h : f.SameParts g) : f = g := by
  obtain ⟨⟨catalog, hfv⟩, hfs⟩ := hf
  obtain ⟨⟨other, hgv⟩, hgs⟩ := hg
  obtain ⟨hfield, hop, htext⟩ := h
  exact hfv.eq_of_render_eq hgv hfs hgs hfield hop htext

theorem eq_of_forall₂_sameParts (hf : ∀ f ∈ fs, f.Recoverable) (hg : ∀ g ∈ gs, g.Recoverable)
    (h : List.Forall₂ SameParts fs gs) : fs = gs := by
  induction h with
  | nil => rfl
  | cons hhead _ ih =>
      rw [List.forall_mem_cons] at hf hg
      rw [eq_of_sameParts hf.1 hg.1 hhead, ih hf.2 hg.2]

end Filter

/-! ## requests -/

namespace Request

/-- **Tokens tell filters**: of filters on fields without a mark in the name, two requests have
the same tokens exactly when, one by one, the filters have the same field, the same operator and
the same text of the value, whatever characters this text has.  If they can be built, and no list
element holds the separator, they are then the same filters. -/
theorem tokens_identify_filters {fs gs : Selection} (p q : Pagination)
    (hf : ∀ f ∈ fs, f.Unmarked) (hg : ∀ g ∈ gs, g.Unmarked) :
    let sameTokens := (ofCriteria ⟨fs, p⟩).filter = (ofCriteria ⟨gs, q⟩).filter
    (sameTokens ↔ List.Forall₂ Filter.SameParts fs gs) ∧
      ((∀ f ∈ fs, f.Recoverable) → (∀ g ∈ gs, g.Recoverable) → (sameTokens ↔ fs = gs)) := by
  intro sameTokens
  have htokens : sameTokens ↔ List.Forall₂ Filter.SameParts fs gs := Filter.map_token_eq_iff hf hg
  refine ⟨htokens, fun hfr hgr => ⟨fun h => ?_, fun h => ?_⟩⟩
  · exact Filter.eq_of_forall₂_sameParts hfr hgr (htokens.1 h)
  · simp only [sameTokens, h, ofCriteria]

/-- Values with marks in them, of the same texts in both requests: one operator tells them
apart. -/
theorem tokens_identify_filters_of_marks :
    let fs : Selection := [⟨"branch", .eq, .text "a=b"⟩, ⟨"result", .isIn, .list ["*", "=x"]⟩]
    let gs : Selection := [⟨"branch", .eq, .text "a=b"⟩, ⟨"result", .eq, .text "*;=x"⟩]
    (∀ f ∈ fs, f.Unmarked ∧ f.Recoverable) ∧ (∀ g ∈ gs, g.Unmarked ∧ g.Recoverable) ∧
      (ofCriteria ⟨fs, ⟨1, 20⟩⟩).filter = ["branch=a=b", "result**;=x"] ∧
      (ofCriteria ⟨fs, ⟨1, 20⟩⟩).filter ≠ (ofCriteria ⟨gs, ⟨1, 20⟩⟩).filter := by
  intro fs gs
  have hbranch : (⟨"branch", .eq, .text "a=b"⟩ : Filter).Valid Catalog.empty :=
    Filter.valid_of_build (rfl : Filter.build _ "branch" .eq (.text "a=b") = _)
  have hin : (⟨"result", .isIn, .list ["*", "=x"]⟩ : Filter).Valid Catalog.builtin :=
    Filter.valid_of_build (rfl : Filter.build _ "result" .isIn (.list ["*", "=x"]) = _)
  have heq : (⟨"result", .eq, .text "*;=x"⟩ : Filter).Valid Catalog.empty :=
    Filter.valid_of_build (rfl : Filter.build _ "result" .eq (.text "*;=x") = _)
  have hnames : (∀ op : Operator, op.mark ∉ "branch".toList) ∧
      ∀ op : Operator, op.mark ∉ "result".toList :=
    ⟨fun op => by cases op <;> decide, fun op => by cases op <;> decide⟩
  have hf : ∀ f ∈ fs, f.Unmarked ∧ f.Recoverable := by
    simp only [fs, List.forall_mem_cons, List.not_mem_nil, false_imp_iff, implies_true, and_true]
    exact ⟨⟨hnames.1, ⟨_, hbranch⟩, trivial⟩, hnames.2, ⟨_, hin⟩,
      by simp [Value.Separable, listSeparator]⟩
  have hg : ∀ g ∈ gs, g.Unmarked ∧ g.Recoverable := by
    simp only [gs, List.forall_mem_cons, List.not_mem_nil, false_imp_iff, implies_true, and_true]
    exact ⟨⟨hnames.1, ⟨_, hbranch⟩, trivial⟩, hnames.2, ⟨_, heq⟩, trivial⟩
  refine ⟨hf, hg, by decide, ?_⟩
  obtain ⟨-, hsame⟩ := tokens_identify_filters ⟨1, 20⟩ ⟨1, 20⟩ (fun f h => (hf f h).1)
    (fun g h => (hg g h).1)
  rw [ne_eq, hsame (fun f h => (hf f h).2) fun g h => (hg g h).2]
  simp [fs, gs]

end Request

end ViewFilters
