import Mathlib.Data.List.Induction
import ViewFilters.Proofs.Filter.Recovery
import ViewFilters.Request

/-!
# ViewFilters.Proofs.Request.Joined

When the tokens of a request can be told from their joined text.  Tokens are joined by
commas and nothing is escaped, so a value can make one filter read as two:

```
component=ui,branch=main       component is "ui,branch=main"
                               or component is "ui" and branch is "main"
```

A comma does harm only where the value *ends in* the token of another filter, as here.  Two
lists of tokens with one joined text have the same last token, unless the longer one of the
two ends in a comma and the shorter one; without the last tokens there are again two lists
with one joined text.  So the joined text and the tokens apart say the same while no value
of the one list ends in a token of the other, and every such pair of filters does let two
requests have one joined text (`joinedFilter_eq_iff`).
-/

namespace ViewFilters

/-! ## the last of several -/

/-- Where one text is cut at a separator in two ways, the parts behind are the same, unless one of
them ends in a separator and the other. -/
theorem eq_of_append_cons_eq {α : Type} {sep : α} {xs ys t u : List α}
    (h : xs ++ sep :: t = ys ++ sep :: u) (ht : ¬ sep :: u <:+ t) (hu : ¬ sep :: t <:+ u) :
    t = u := by
  have hends : sep :: t <:+ ys ++ sep :: u := ⟨xs, h⟩
  obtain hle | hle := List.suffix_or_suffix_of_suffix hends (List.suffix_append ys (sep :: u))
  · obtain heq | hlt := List.suffix_cons_iff.1 hle
    · exact (List.cons.inj heq).2
    · exact absurd hlt hu
  · obtain heq | hlt := List.suffix_cons_iff.1 hle
    · exact (List.cons.inj heq).2.symm
    · exact absurd hlt ht

/-- An ending that starts with a separator does not reach into a beginning without any. -/
theorem suffix_of_suffix_append {α : Type} {sep : α} {xs ys t : List α} (hsep : sep ∉ xs)
    (h : sep :: t <:+ xs ++ ys) : sep :: t <:+ ys := by
  induction xs with
  | nil => exact h
  | cons x xs ih =>
      simp only [List.mem_cons, not_or] at hsep
      obtain heq | hlt := List.suffix_cons_iff.1 h
      · exact absurd (List.cons.inj heq).1 hsep.1
      · exact ih hsep.2 hlt

/-! ## tokens in a row -/

/-- Each token with a comma before it. -/
def commaTokens (ts : List (List Char)) : List Char := ts.flatMap (',' :: ·)

theorem commaTokens_concat (ts : List (List Char)) (t : List Char) :
    commaTokens (ts ++ [t]) = commaTokens ts ++ ',' :: t := by
  simp [commaTokens]

theorem commaTokens_eq_cons_joined {ts : List (List Char)} (h : ts ≠ []) :
    commaTokens ts = ',' :: joined ',' ts := by
  induction ts with
  | nil => contradiction
  | cons t ts ih =>
      cases ts with
      | nil => simp [commaTokens]
      | cons u us => simp [commaTokens, joined_cons, ← ih]

/-- No token of the one list ends in a comma and a token of the other. -/
def NoneEndsIn (ts us : List (List Char)) : Prop :=
  ∀ t ∈ ts, ∀ u ∈ us, ¬ ',' :: u <:+ t ∧ ¬ ',' :: t <:+ u

theorem NoneEndsIn.of_append {ts us ts' us' : List (List Char)}
    (h : NoneEndsIn (ts ++ ts') (us ++ us')) : NoneEndsIn ts us := fun t ht u hu =>
  h t (List.mem_append_left _ ht) u (List.mem_append_left _ hu)

/-- Tokens with commas before them can then be told apart.  The induction is from the end: where
a first token stops is not known, but the last ones have nothing behind them. -/
theorem commaTokens_inj {ts us : List (List Char)} (hends : NoneEndsIn ts us)
    (h : commaTokens ts = commaTokens us) : ts = us := by
  induction ts using List.reverseRecOn generalizing us with
  | nil => cases us <;> simp [commaTokens] at h ⊢
  | append_singleton ts t ih =>
      cases us using List.reverseRecOn with
      | nil => simp [commaTokens] at h
      | append_singleton us u =>
          rw [commaTokens_concat, commaTokens_concat] at h
          obtain ⟨ht, hu⟩ := hends t (by simp) u (by simp)
          obtain rfl := eq_of_append_cons_eq h ht hu
          rw [ih hends.of_append (List.append_cancel_right h)]

/-- The text of tokens that are not empty is empty only if there are none. -/
theorem joined_tokens_eq_nil_iff {ts : List (List Char)} (hne : ∀ t ∈ ts, t ≠ []) :
    joined ',' ts = [] ↔ ts = [] := by
  cases ts with
  | nil => simp
  | cons t ts => cases ts <;> simp_all [joined]

/-- Tokens that are joined can be told apart in the same case. -/
theorem joined_tokens_inj {ts us : List (List Char)} (ht : ∀ t ∈ ts, t ≠ [])
    (hu : ∀ u ∈ us, u ≠ []) (hends : NoneEndsIn ts us) (h : joined ',' ts = joined ',' us) :
    ts = us := by
  by_cases hts : ts = []
  · rw [hts, joined_nil, eq_comm, joined_tokens_eq_nil_iff hu] at h
    rw [hts, h]
  by_cases hus : us = []
  · rw [hus, joined_nil, joined_tokens_eq_nil_iff ht] at h
    contradiction
  · refine commaTokens_inj hends ?_
    rw [commaTokens_eq_cons_joined hts, commaTokens_eq_cons_joined hus, h]

/-! ## filters -/

/-- The name of a field that can be filtered on, without a comma and without the mark of
an operator. -/
structure IsPlainName (name : String) : Prop where
  ne_empty : name ≠ ""
  unreserved : isReserved name = false
  comma : ',' ∉ name.toList
  mark : ∀ op : Operator, op.mark ∉ name.toList

theorem Operator.mark_ne_comma (op : Operator) : op.mark ≠ ',' := by
  cases op <;> decide

namespace Filter

/-- A filter that can be built, on a field whose name holds no comma and no mark. -/
structure Plain (f : Filter) : Prop where
  built : ∃ catalog field op v, build catalog field op v = .ok f
  comma : ',' ∉ f.field.toList
  mark : ∀ op : Operator, op.mark ∉ f.field.toList

/-- The text of the filter's value ends in a comma and the whole token of the other filter. -/
def EndsIn (f g : Filter) : Prop := ',' :: g.token.toList <:+ f.value.render.toList

instance (f g : Filter) : Decidable (f.EndsIn g) :=
  inferInstanceAs (Decidable (_ <:+ _))

variable {f g : Filter}

/-- Equality on a plain name makes a plain filter of any text. -/
theorem plain_eq_text {name text : String} (hname : IsPlainName name) (htext : text ≠ "") :
    (⟨name, .eq, .text text⟩ : Filter).Plain where
  built := ⟨Catalog.empty, name, .eq, .text text,
    build_eq_text Catalog.empty htext hname.ne_empty hname.unreserved⟩
  comma := hname.comma
  mark := hname.mark

theorem toList_token (f : Filter) :
    f.token.toList = f.field.toList ++ f.operator.mark :: f.value.render.toList := by
  simp [token, String.toList_append]

theorem toList_token_ne_nil (f : Filter) : f.token.toList ≠ [] := by
  simp [toList_token]

/-- A token that ends in another one after a comma has it in the value. -/
theorem endsIn_of_suffix_token (hf : ',' ∉ f.field.toList)
    (h : ',' :: g.token.toList <:+ f.token.toList) : f.EndsIn g := by
  have hname : ',' ∉ f.field.toList ++ [f.operator.mark] := by
    simp [hf, f.operator.mark_ne_comma.symm]
  refine suffix_of_suffix_append hname ?_
  simpa [toList_token] using h

/-- A token after a comma is not the whole of the token that ends in it. -/
theorem EndsIn.token_ne (h : f.EndsIn g) : f.token ≠ g.token := by
  intro heq
  have hlength := h.length_le
  rw [← heq, toList_token, List.length_cons, List.length_append, List.length_cons] at hlength
  omega

end Filter

/-! ## requests -/

namespace Request

variable {r s : Request}

/-- The pairs of a request tell the texts of its tokens and the numbers. -/
theorem pairs_eq_iff (layout : TokenLayout) :
    r.pairs layout = s.pairs layout ↔ r.filterTexts layout = s.filterTexts layout ∧
      Decimal.text r.page.toNat = Decimal.text s.page.toNat ∧
      Decimal.text r.pageSize.toNat = Decimal.text s.pageSize.toNat := by
  unfold pairs
  constructor
  · intro h
    obtain ⟨htokens, hnumbers⟩ := List.append_inj' h rfl
    have htexts := (List.map_inj_right fun _ _ heq => (Prod.mk.inj heq).2).1 htokens
    simpa [htexts] using hnumbers
  · rintro ⟨htexts, hpage, hsize⟩
    rw [htexts, hpage, hsize]

/-- When the joined texts tell the tokens, so do the pairs. -/
theorem pairs_joined_eq_iff (h : r.joinedFilter = s.joinedFilter ↔ r.filter = s.filter) :
    r.pairs .joined = s.pairs .joined ↔ r.pairs .separate = s.pairs .separate := by
  rw [pairs_eq_iff, pairs_eq_iff, filterTexts, filterTexts, filterTexts, filterTexts,
    List.cons.injEq, h]
  simp

theorem toList_joinedFilter (r : Request) :
    r.joinedFilter.toList = joined ',' (r.filter.map String.toList) := by
  rw [joinedFilter, joinTexts, String.toList_ofList]

/-- While no value ends in a token of the other list, the joined texts tell the tokens. -/
theorem filter_eq_of_joinedFilter_eq {fs gs : Selection} {p q : Pagination}
    (hf : ∀ f ∈ fs, ',' ∉ f.field.toList) (hg : ∀ g ∈ gs, ',' ∉ g.field.toList)
    (hends : ∀ f ∈ fs, ∀ g ∈ gs, ¬ f.EndsIn g ∧ ¬ g.EndsIn f)
    (h : (ofCriteria ⟨fs, p⟩).joinedFilter = (ofCriteria ⟨gs, q⟩).joinedFilter) :
    (ofCriteria ⟨fs, p⟩).filter = (ofCriteria ⟨gs, q⟩).filter := by
  simp only [ofCriteria]
  have hne : ∀ {hs : Selection}, ∀ t ∈ (hs.map Filter.token).map String.toList, t ≠ [] := by
    simp only [List.forall_mem_map]
    exact fun f _ => f.toList_token_ne_nil
  have hnone : NoneEndsIn ((fs.map Filter.token).map String.toList)
      ((gs.map Filter.token).map String.toList) := by
    simp only [NoneEndsIn, List.forall_mem_map]
    intro f hfs g hgs
    obtain ⟨hfg, hgf⟩ := hends f hfs g hgs
    exact ⟨fun hsuffix => hfg (Filter.endsIn_of_suffix_token (hf f hfs) hsuffix),
      fun hsuffix => hgf (Filter.endsIn_of_suffix_token (hg g hgs) hsuffix)⟩
  rw [← String.toList_inj, toList_joinedFilter, toList_joinedFilter] at h
  have hsame := joined_tokens_inj hne hne hnone h
  exact (List.map_inj_right fun _ _ => String.toList_inj.1).1 hsame

theorem isPlainName_component : IsPlainName "component" :=
  ⟨by decide, by decide, by decide, fun op => by cases op <;> decide⟩

theorem isPlainName_branch : IsPlainName "branch" :=
  ⟨by decide, by decide, by decide, fun op => by cases op <;> decide⟩

/-- A value that ends in a token lets two requests have one joined text: what comes before
the token becomes a part of the filter before. -/
theorem exists_joinedFilter_eq {f g : Filter} (h : f.EndsIn g) :
    ∃ a b : Filter, a.Plain ∧ b.Plain ∧ ∀ p : Pagination,
      (ofCriteria ⟨[a, f], p⟩).joinedFilter = (ofCriteria ⟨[b, g], p⟩).joinedFilter ∧
        (ofCriteria ⟨[a, f], p⟩).filter ≠ (ofCriteria ⟨[b, g], p⟩).filter := by
  obtain ⟨before, hbefore⟩ := h
  let start := "ui," ++ f.field ++ String.singleton f.operator.mark ++ String.ofList before
  let a : Filter := ⟨"component", .eq, .text "ui"⟩
  let b : Filter := ⟨"component", .eq, .text start⟩
  have hstart : start ≠ "" := by simp [start]
  refine ⟨a, b, Filter.plain_eq_text isPlainName_component (by decide),
    Filter.plain_eq_text isPlainName_component hstart, fun p => ⟨?joined, ?tokens⟩⟩
  case joined =>
    have ha : a.token.toList = "component=ui".toList := by decide
    have hb : b.token.toList = "component=ui,".toList ++ f.field.toList ++
        f.operator.mark :: before := by
      simp [b, start, Filter.toList_token, Value.render, Operator.mark]
    have hf : f.token.toList = f.field.toList ++
        f.operator.mark :: (before ++ ',' :: g.token.toList) := by
      rw [Filter.toList_token, hbefore]
    rw [← String.toList_inj, toList_joinedFilter, toList_joinedFilter]
    simp [ofCriteria, joined, ha, hb, hf]
  case tokens =>
    intro heq
    have hlast : f.token = g.token := by
      simp only [ofCriteria, List.map_cons, List.cons.injEq] at heq
      exact heq.2.1
    exact Filter.EndsIn.token_ne ⟨before, hbefore⟩ hlast

/-- **Joined tokens**: of filters on fields without a comma in the name, the joined text of the
tokens says the same as the tokens apart, and so do the pairs of the request in either layout,
while no value of the one list ends in a comma and the token of a filter of the other.  No such
pair of filters can be let through: each has two requests that end in them, with one joined text
and different tokens. -/
theorem joinedFilter_eq_iff :
    (∀ (fs gs : Selection) (p q : Pagination),
      (∀ f ∈ fs, ',' ∉ f.field.toList) → (∀ g ∈ gs, ',' ∉ g.field.toList) →
      (∀ f ∈ fs, ∀ g ∈ gs, ¬ f.EndsIn g ∧ ¬ g.EndsIn f) →
        let r := ofCriteria ⟨fs, p⟩
        let s := ofCriteria ⟨gs, q⟩
        (r.joinedFilter = s.joinedFilter ↔ r.filter = s.filter) ∧
          (r.pairs .joined = s.pairs .joined ↔ r.pairs .separate = s.pairs .separate)) ∧
    ∀ f g : Filter, f.EndsIn g → ∃ a b : Filter, a.Plain ∧ b.Plain ∧ ∀ p : Pagination,
      (ofCriteria ⟨[a, f], p⟩).joinedFilter = (ofCriteria ⟨[b, g], p⟩).joinedFilter ∧
        (ofCriteria ⟨[a, f], p⟩).filter ≠ (ofCriteria ⟨[b, g], p⟩).filter := by
  constructor
  · intro fs gs p q hf hg hends r s
    have hjoined : r.joinedFilter = s.joinedFilter ↔ r.filter = s.filter :=
      ⟨filter_eq_of_joinedFilter_eq hf hg hends, fun h => by rw [joinedFilter, joinedFilter, h]⟩
    exact ⟨hjoined, pairs_joined_eq_iff hjoined⟩
  · exact fun f g h => exists_joinedFilter_eq h

/-- Commas that do no harm, one of them before all of a token but its last part, and the one
that does. -/
theorem joinedFilter_eq_iff_of_comma :
    let fs : Selection := [⟨"component", .eq, .text "ui,branch=main,api"⟩,
      ⟨"branch", .eq, .text "bob@example.com,alice@example.com"⟩]
    let gs : Selection := [⟨"component", .eq, .text "ui"⟩, ⟨"branch", .eq, .text "main"⟩]
    let f : Filter := ⟨"component", .eq, .text "ui,branch=main"⟩
    let g : Filter := ⟨"branch", .eq, .text "main"⟩
    (∀ f ∈ fs, ',' ∉ f.field.toList) ∧ (∀ g ∈ gs, ',' ∉ g.field.toList) ∧
      (∀ f ∈ fs, ∀ g ∈ gs, ¬ f.EndsIn g ∧ ¬ g.EndsIn f) ∧
      (ofCriteria ⟨fs, ⟨1, 20⟩⟩).joinedFilter ≠ (ofCriteria ⟨gs, ⟨1, 20⟩⟩).joinedFilter ∧
      f.EndsIn g ∧ ∃ a b : Filter, a.Plain ∧ b.Plain ∧
        (ofCriteria ⟨[a, f], ⟨1, 20⟩⟩).joinedFilter = (ofCriteria ⟨[b, g], ⟨1, 20⟩⟩).joinedFilter ∧
        (ofCriteria ⟨[a, f], ⟨1, 20⟩⟩).filter ≠ (ofCriteria ⟨[b, g], ⟨1, 20⟩⟩).filter := by
  intro fs gs f g
  have hf : ∀ f ∈ fs, ',' ∉ f.field.toList := by decide
  have hg : ∀ g ∈ gs, ',' ∉ g.field.toList := by decide
  have hends : ∀ f ∈ fs, ∀ g ∈ gs, ¬ f.EndsIn g ∧ ¬ g.EndsIn f := by decide +kernel
  have hend : f.EndsIn g := by decide +kernel
  obtain ⟨hsame, hclash⟩ := joinedFilter_eq_iff
  obtain ⟨hjoined, -⟩ := hsame fs gs ⟨1, 20⟩ ⟨1, 20⟩ hf hg hends
  obtain ⟨a, b, ha, hb, heq⟩ := hclash f g hend
  refine ⟨hf, hg, hends, ?_, hend, a, b, ha, hb, heq ⟨1, 20⟩⟩
  rw [ne_eq, hjoined]
  decide

/-- Plain names alone do not tell tokens apart: a value may hold a whole token after a comma. -/
theorem not_joinedFilter_inj :
    ¬ ∀ (fs gs : Selection) (p q : Pagination), (∀ f ∈ fs, f.Plain) → (∀ g ∈ gs, g.Plain) →
      (ofCriteria ⟨fs, p⟩).joinedFilter = (ofCriteria ⟨gs, q⟩).joinedFilter →
        (ofCriteria ⟨fs, p⟩).filter = (ofCriteria ⟨gs, q⟩).filter := by
  intro h
  have hsame := h [⟨"component", .eq, .text "ui,branch=main"⟩]
    [⟨"component", .eq, .text "ui"⟩, ⟨"branch", .eq, .text "main"⟩] ⟨1, 20⟩ ⟨1, 20⟩
    (by simpa using Filter.plain_eq_text isPlainName_component (by decide))
    (by simpa using ⟨Filter.plain_eq_text isPlainName_component (by decide),
      Filter.plain_eq_text isPlainName_branch (by decide)⟩)
    (by decide)
  simp [ofCriteria] at hsame

end Request

end ViewFilters
